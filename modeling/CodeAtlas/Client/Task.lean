import CodeAtlas.Client.Basic
import CodeAtlas.Protocol.Basic

/-!
# Connections and tasks

A connection carries octets from the server to the client and messages from the client to the
server. Calls, the loop that reads from a connection, and answers to the server run as tasks. The
phase of a task says what it does next. Tasks share two locks: the lifecycle of the session and the
writer.
-/

namespace CodeAtlas.Client

/-- The place of a connection in the list of all. -/
abbrev ConnectionId := Nat

/-- What the far end does with what is written. -/
inductive WriteMode where
  | accept
  | fail (text : String)
  | stall
deriving DecidableEq, Inhabited

/-- What comes in on a connection. -/
inductive Arrival where
  /-- Octets in one piece; none at all are the end of the stream. -/
  | octets (bytes : Bytes)
  | fault (text : String)
deriving DecidableEq

/-- A connection: what comes in and is to be read, and what has been sent. -/
structure Connection where
  arrivals : List Arrival := []
  isEnded : Bool := false
  mode : WriteMode := .accept
  sent : List Rpc.Message := []
  isClosed : Bool := false
deriving DecidableEq

/-- How many octets are read at once. -/
def chunkSize : Nat := 8192

/-- What one read comes to. -/
inductive Reading where
  | octets (bytes : Bytes)
  | ended
  | fault (text : String)
deriving DecidableEq

/-- Reads from a connection; `none` if nothing has arrived yet. -/
def Connection.read (c : Connection) : Option (Reading × Connection) :=
  match c.arrivals with
  | .octets [] :: rest => some (.ended, { c with arrivals := rest })
  | .octets bytes :: rest =>
    let left := bytes.drop chunkSize
    let arrivals := if left.isEmpty then rest else .octets left :: rest
    some (.octets (bytes.take chunkSize), { c with arrivals })
  | .fault text :: rest => some (.fault text, { c with arrivals := rest })
  | [] => if c.isEnded then some (.ended, c) else none

open Json (Value)
open Protocol (Question)
open Rpc (Message RequestId)
open Time (Duration)

/-- The place of a task in the list of all. -/
abbrev TaskId := Nat

/-- What a call returns. -/
abbrev Outcome := Except Error Value

/-- What users ask of a client. -/
inductive Call where
  | start
  | attach (connection : ConnectionId)
  | stop
  | request (method : String) (params : Option Value) (id : Option RequestId)
      (timeout : Option Duration)
  | ask (question : Question)
  | notify (method : String) (params : Option Value)
  | cancel (id : RequestId)
deriving DecidableEq

/-- What a user has for the server. Only an initialized session takes it. -/
inductive Traffic where
  /-- A request, perhaps one of a question whose answer is read. -/
  | request (method : String) (params : Option Value) (id : Option RequestId)
      (timeout : Option Duration) (question : Option Question)
  | notification (method : String) (params : Option Value)
deriving DecidableEq

/-- What a call has for the server, if it is one of a user who talks to the server. -/
def Call.traffic? : Call → Option Traffic
  | .request method params id timeout => some (.request method params id timeout none)
  | .ask question =>
    some (.request question.method (some question.params) none none (some question))
  | .notify method params => some (.notification method params)
  | _ => none

/-- What a request is sent for. -/
inductive Purpose where
  /-- A call of a user, perhaps with a question whose answer is read. -/
  | user (question : Option Question)
  | handshake
  | shutdown
deriving DecidableEq

/-- A request on its way. -/
structure Dispatch where
  id : RequestId
  method : String
  after : Duration
  purpose : Purpose
deriving DecidableEq

/-- Why a message is written. -/
inductive Errand where
  | request (dispatch : Dispatch)
  | notification
  | cancellation
  | initialized
  | exit
  | reply (method : String)
deriving DecidableEq

/-- Why a session is torn down. -/
inductive Ending where
  | failed (error : Error)
  | stopped
deriving DecidableEq

/-- What a task wants the writer for. -/
inductive Job where
  | install (connection : ConnectionId)
  | send (message : Message) (errand : Errand)
  | close (ending : Ending)
deriving DecidableEq

/-- What a task does next. -/
inductive Phase where
  | ready (call : Call)
  /-- The session was initialized when the call looked. -/
  | admitted (traffic : Traffic)
  /-- The request is in the table, and the writer has not been asked for. -/
  | registered (message : Message) (dispatch : Dispatch)
  /-- A request has been taken out of the table, and the writer has not been asked for. -/
  | revoked (message : Message)
  | reply (message : Message) (method : String)
  | lockSession (call : Call)
  | lockWriter (job : Job)
  | writing (message : Message) (errand : Errand)
  | sent (errand : Errand) (result : Except Error Unit)
  | awaiting (dispatch : Dispatch) (deadline : Duration)
  | leaving (dispatch : Dispatch) (outcome : Outcome)
  | answered (dispatch : Dispatch) (outcome : Outcome)
  | opened (connection : ConnectionId)
  | tearDown (ending : Ending)
  | joining (reader : TaskId) (ending : Ending)
  | shutting (connection : ConnectionId) (ending : Ending)
  | closed (ending : Ending)
  | reading (connection : ConnectionId) (buffer : Wire.Buffer)
  | finished

/-- What has come for the request of a task. -/
inductive Inbox where
  | empty
  | delivered (outcome : Outcome)
  /-- Nothing will come any more. -/
  | abandoned

/-- A task, with what others leave for it. -/
structure Task where
  phase : Phase
  inbox : Inbox := .empty
  isQueued : Bool := true
  isAborted : Bool := false
  joiner : Option TaskId := none

/-- A lock that is given to waiting tasks in the order of their arrival. -/
structure Lock where
  owner : Option TaskId := none
  waiting : List TaskId := []
deriving DecidableEq

namespace Lock

/-- Asks for the lock: a free lock is taken at once. -/
def ask (lock : Lock) (task : TaskId) : Lock :=
  match lock.owner with
  | none => { lock with owner := some task }
  | some _ => { lock with waiting := lock.waiting ++ [task] }

/-- Passes the lock on to the first task that waits. -/
def pass (lock : Lock) : Lock := ⟨lock.waiting.head?, lock.waiting.tail⟩

/-- Takes a task out of the line; the lock is passed on if it is the task's. -/
def leave (lock : Lock) (task : TaskId) : Lock :=
  if lock.owner = some task then lock.pass
  else { lock with waiting := lock.waiting.filter (· ≠ task) }

end Lock

end CodeAtlas.Client
