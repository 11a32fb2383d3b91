import CodeAtlas.Client.Machine
import CodeAtlas.Uri.File

/-!
# Steps of tasks

`Machine.step` lets a task do the next thing, or says that it has to wait. Tasks may run on several
threads, so a call of a user takes three steps between which others can act: it looks at the state
(`allow`), registers its request with the number that it takes (`dispatch`), and asks for the
writer. `shakeHands`, `conclude` and the failure of a session (`Machine.failSession`) use several
shared parts of the client in one step: others see all of what these do, or nothing.
-/

namespace CodeAtlas.Client

open Json (Value)
open Rpc (Message)

/-- What a workspace is called. -/
def folderName (workspace : String) : String := (Files.fileName? workspace).getD "workspace"

/-- What stands for the id of this process, which is different in every run. -/
def processIdMark : String := "PID"

/-- What the server is told in a handshake. -/
def initializeParams (provider : Server.Provider) (root : Uri) (folders : Value) : Value :=
  .object ([("processId", .str processIdMark),
    ("clientInfo", .object [("name", .str "lodestar"), ("version", .str "0.1.0")]),
    ("rootUri", .str root.text), ("workspaceFolders", folders),
    ("capabilities", Server.clientCapabilities)] ++
    (provider.options.map fun options => ("initializationOptions", options)).toList)

/-- The folders of a workspace: its root only. -/
def foldersValue (root : Uri) (workspace : String) : Value :=
  .arr [.object [("uri", .str root.text), ("name", .str (folderName workspace))]]

namespace Machine

variable (m : Machine) (t : TaskId)

/-- Reports why no session was started, and tears down what there is of it. -/
def failStartup (e : Error) : Machine :=
  let m := m.note .error "language server startup failed"
    [("server", m.provider.name), ("error", e.text)]
  (m.force .error).goTo t (.tearDown (.failed e))

/-- Looks whether the session is initialized. Others may go on before the call does. -/
def allow (traffic : Traffic) : Machine :=
  if m.state = .initialized then m.goTo t (.admitted traffic)
  else m.return_ t (.error (.notInitialized m.state))

/-- Does what a call was admitted for, without another look at the state. -/
def act (traffic : Traffic) : Machine :=
  match traffic with
  | .request method params id timeout question =>
    m.dispatch t method params id (timeout.getD m.options.requestTimeout) (.user question)
  | .notification method params =>
    m.askWriter t (.send (.notification method params) .notification)

/-- Starts a call. -/
def begin_ (call : Call) : Machine :=
  match call.traffic? with
  | some traffic => m.allow t traffic
  | none =>
    match call with
    | .cancel id =>
      if m.isPending id then
        (m.resolve id (.error (.cancelled id))).goTo t
          (.revoked (.notification "$/cancelRequest" (some (.object [("id", id.toValue)]))))
      else m.return_ t (.ok (.bool false))
    | _ => m.askSession t call

/-- Does what a call wants with the lifecycle, once the lock is its own. -/
def enter (call : Call) : Machine :=
  match call with
  | .stop =>
    match m.state with
    | .disconnected => m.passSession.return_ t (.ok .null)
    | .initialized => m.dispatch t "shutdown" none none m.options.shutdownTimeout .shutdown
    | .connected => m.dispatch t "shutdown" none none m.options.shutdownTimeout .shutdown
    | _ => (m.force .shuttingDown).goTo t (.tearDown .stopped)
  | .attach connection =>
    match m.transition .connecting with
    | .ok m => m.askWriter t (.install connection)
    | .error e => m.passSession.return_ t (.error e)
  | .start =>
    match m.transition .connecting with
    | .ok m =>
      match m.launch with
      | .fails e => m.failStartup t e
      | .unreachable e => { m with hasProcess := true }.failStartup t e
      | .connects connection => { m with hasProcess := true }.askWriter t (.install connection)
    | .error e => m.passSession.return_ t (.error e)
  | _ => m.passSession.finish t

/-- Starts the reading loop of a connection that has been installed, and the handshake. -/
def shakeHands (connection : ConnectionId) : Machine :=
  match m.transition .connected with
  | .error e => m.failStartup t e
  | .ok m =>
    let reader := m.tasks.length
    let m := { m.spawn (.reading connection { limit := m.options.maxBody }) with
      reader := some reader }
    match m.folder with
    | .error e => m.failStartup t e
    | .ok root =>
      let folders := foldersValue root m.workspace
      match { m with folders }.transition .initializing with
      | .error e => { m with folders }.failStartup t e
      | .ok m =>
        m.dispatch t "initialize" (some (initializeParams m.provider root folders)) none
          m.options.initializeTimeout .handshake

/-- Does a job, once the writer is the task's own. -/
def useWriter (job : Job) : Machine :=
  match job with
  | .install connection =>
    { m with writer := some connection }.passWriter.goTo t (.opened connection)
  | .send message errand => m.goTo t (.writing message errand)
  | .close ending =>
    match m.writer with
    | some connection => { m with writer := none }.goTo t (.shutting connection ending)
    | none => m.passWriter.goTo t (.closed ending)

/-- Writes a message, unless the far end leaves the writer waiting. -/
def write (message : Message) (errand : Errand) : Option Machine :=
  match m.writer with
  | none => some (m.passWriter.goTo t (.sent errand (.error .serverExited)))
  | some c =>
    match (m.connection? c).map Connection.mode with
    | some .accept =>
      let m := m.setConnection c fun connection =>
        { connection with sent := connection.sent ++ [message] }
      some (m.passWriter.goTo t (.sent errand (.ok ())))
    | some (.fail text) => some (m.passWriter.goTo t (.sent errand (.error (.io (.other text)))))
    | some .stall => none
    | none => none

/-- Goes on when a message has been written, or could not be. -/
def afterSend (errand : Errand) (result : Except Error Unit) : Machine :=
  match errand, result with
  | .request d, .ok () => m.goTo t (.awaiting d ⟨m.clock.nanoseconds + d.after.nanoseconds⟩)
  | .request d, .error e =>
    let m := m.note .warn "failed to send LSP request"
      [("method", d.method), ("id", d.id.display), ("error", e.text)]
    (m.failOn e).goTo t (.leaving d (.error e))
  | .notification, .ok () => m.return_ t (.ok .null)
  | .notification, .error e => (m.failOn e).return_ t (.error e)
  | .cancellation, .ok () => m.return_ t (.ok (.bool true))
  | .cancellation, .error e => (m.failOn e).return_ t (.error e)
  | .initialized, .ok () =>
    match m.transition .initialized with
    | .ok m => m.passSession.return_ t (.ok .null)
    | .error e => m.failStartup t e
  | .initialized, .error e => (m.failOn e).failStartup t e
  | .exit, _ => (m.force .shuttingDown).goTo t (.tearDown .stopped)
  | .reply _, .ok () => m.finish t
  | .reply method, .error e =>
    (m.note .warn "failed to answer server request"
      [("method", method), ("error", e.text)]).finish t

/-- Takes what has come for a request, or gives up when its time is over. -/
def await (inbox : Inbox) (d : Dispatch) (deadline : Time.Duration) : Option Machine :=
  match inbox with
  | .delivered outcome => some (m.goTo t (.leaving d outcome))
  | .abandoned => some (m.goTo t (.leaving d (.error (.cancelled d.id))))
  | .empty =>
    if deadline.nanoseconds ≤ m.clock.nanoseconds then
      let m := m.note .warn "LSP request timed out"
        [("method", d.method), ("id", d.id.display), ("after", d.after.text)]
      some (m.goTo t (.leaving d (.error (.timeout d.id d.method d.after))))
    else none

/-- Gives up the place of a request in the table, whatever its outcome. -/
def leave (d : Dispatch) (outcome : Outcome) : Machine :=
  (m.unregister t d.id).goTo t (.answered d outcome)

/-- Tells the server to exit. -/
def sayGoodbye : Machine :=
  (m.force .shuttingDown).askWriter t (.send (.notification "exit" none) .exit)

/-- Goes on with the outcome of a request. -/
def afterAnswer (d : Dispatch) (outcome : Outcome) : Machine :=
  match d.purpose, outcome with
  | .user none, _ => m.return_ t outcome
  | .user (some _), .error e => m.return_ t (.error e)
  | .user (some question), .ok value =>
    match question.answer value with
    | .ok answer => m.return_ t (.ok answer)
    | .error e => m.return_ t (.error (.deserialize (.shape e)))
  | .handshake, .error e => m.failStartup t e
  | .handshake, .ok result =>
    match m.provider.validate result with
    | .error e => m.failStartup t e
    | .ok () =>
      { m with capabilities := result.member? "capabilities" }.askWriter t
        (.send (.notification "initialized" (some (.object []))) .initialized)
  | .shutdown, .ok _ => m.sayGoodbye t
  | .shutdown, .error e =>
    (m.note .warn "shutdown request failed, continuing teardown"
      [("error", e.text)]).sayGoodbye t

/-- Starts to tear the session down: its reading loop has to end. -/
def tearDown (ending : Ending) : Machine :=
  match m.reader with
  | none => m.askWriter t (.close ending)
  | some reader =>
    let m := { m with reader := none }.setTask reader fun task =>
      { task with isAborted := true, joiner := some t }
    (m.wake reader).goTo t (.joining reader ending)

/-- Whether a task has finished. -/
def hasFinished : Bool :=
  match (m.tasks[t]?).map Task.phase with
  | some .finished => true
  | none => true
  | _ => false

/-- Closes a connection and passes the writer on. -/
def shut (connection : ConnectionId) (ending : Ending) : Machine :=
  (m.setConnection connection fun c => { c with isClosed := true }).passWriter.goTo t
    (.closed ending)

/-- Ends a session: whoever still waits for a response is told that the request was cancelled. -/
def conclude (ending : Ending) : Machine :=
  let m := { m with hasProcess := false }.resolveAll fun id => .error (.cancelled id)
  let m := { m with capabilities := none }
  match ending with
  | .failed e => m.passSession.return_ t (.error e)
  | .stopped => (m.force .disconnected).passSession.return_ t (.ok .null)

/-- Reads once from a connection and handles the frames that are complete. -/
def readOnce (c : ConnectionId) (buffer : Wire.Buffer) : Option Machine :=
  match (m.connection? c).bind Connection.read with
  | none => none
  | some (reading, connection) =>
    let m := m.setConnection c fun _ => connection
    match reading with
    | .ended => some ((m.loseConnection none).finish t)
    | .fault text => some ((m.loseConnection (some text)).finish t)
    | .octets bytes =>
      let (frames, buffer) := (buffer.extend bytes).drain
      some ((m.handleAll frames).goTo t (.reading c buffer))

/-- Lets a task do the next thing; `none` if it has to wait or has finished. -/
def step : Option Machine :=
  match m.tasks[t]? with
  | none => none
  | some task =>
    match task.phase with
    | .finished => none
    | phase =>
      if task.isAborted then some (m.finish t)
      else
        match phase with
        | .finished => none
        | .ready call => some (m.begin_ t call)
        | .admitted traffic => some (m.act t traffic)
        | .registered message d => some (m.askWriter t (.send message (.request d)))
        | .revoked message => some (m.askWriter t (.send message .cancellation))
        | .reply message method => some (m.askWriter t (.send message (.reply method)))
        | .lockSession call => if m.sessionLock.owner = some t then some (m.enter t call) else none
        | .lockWriter job => if m.writerLock.owner = some t then some (m.useWriter t job) else none
        | .writing message errand => m.write t message errand
        | .sent errand result => some (m.afterSend t errand result)
        | .awaiting d deadline => m.await t task.inbox d deadline
        | .leaving d outcome => some (m.leave t d outcome)
        | .answered d outcome => some (m.afterAnswer t d outcome)
        | .opened connection => some (m.shakeHands t connection)
        | .tearDown ending => some (m.tearDown t ending)
        | .joining reader ending =>
          if m.hasFinished reader then some (m.askWriter t (.close ending)) else none
        | .shutting connection ending => some (m.shut t connection ending)
        | .closed ending => some (m.conclude t ending)
        | .reading c buffer => m.readOnce t c buffer

end Machine

end CodeAtlas.Client
