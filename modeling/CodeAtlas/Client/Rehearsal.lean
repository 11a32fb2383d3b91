import CodeAtlas.Client.Schedule

/-!
# Rehearsals

A rehearsal is a client that talks to a server whose answers are laid down beforehand, one call
after another. Both sides work until nothing can happen any more; if the call still waits then, time
passes up to the next deadline.
-/

namespace CodeAtlas.Server

open Json (Value)
open Rpc (Message RequestId)

inductive Reply where
  | result (value : Value)
  | error (value : Value)
  | ignore
  | hangUp
deriving DecidableEq

structure Script where
  before : String → List Value := fun _ => []
  reply? : String → Option Reply := fun _ => none
  /-- Whether it stays after `exit`. -/
  lingers : Bool := false

namespace Script

/-- Reads an answer: some texts and an object with one name say more than a result. -/
def replyOf : Value → Reply
  | .str "$ignore" => .ignore
  | .str "$hangup" => .hangUp
  | .obj [("$error", value)] => .error value
  | value => .result value

def ofValue (value : Value) : Script :=
  let part (name method : String) : Option Value := (value.member? name).bind (·.member? method)
  { before := fun method => ((part "before" method).bind Value.elements?).getD []
    reply? := fun method => (part "replies" method).map replyOf
    lingers := value.member? "linger" == some (.bool true) }

/-- What a scripted server offers unless its script says otherwise. -/
def greeting : Value :=
  .object [("capabilities", .object [("textDocumentSync", .nat 2), ("hoverProvider", .bool true)])]

/-- The answer to a request. What is not laid down is answered with null. -/
def reply (script : Script) (method : String) : Reply :=
  (script.reply? method).getD (.result (if method = "initialize" then greeting else .null))

def errorAnswer (id : RequestId) (error : Value) : Value :=
  .object [("jsonrpc", .str "2.0"), ("id", id.toValue), ("error", error)]

/-- What the server sends for a message, and whether it then hangs up. -/
def react (script : Script) : Message → List Value × Bool
  | .request id method _ =>
    let before := script.before method
    match script.reply method with
    | .result value => (before ++ [(Message.success id value).toValue], false)
    | .error value => (before ++ [errorAnswer id value], false)
    | .ignore => (before, false)
    | .hangUp => (before, true)
  | .notification method _ => ([], method = "exit" && !script.lingers)
  | _ => ([], false)

end Script

end CodeAtlas.Server

namespace CodeAtlas.Client

open Json (Value)
open Server (Script)
open Time (Duration)

def Machine.nextDeadline? (m : Machine) : Option Duration :=
  let deadlines := m.tasks.filterMap fun task => Machine.Phase.deadline? task.phase
  (deadlines.map (·.nanoseconds)).min?.map Duration.mk

structure Rehearsal where
  machine : Machine
  script : Script
  line : ConnectionId := 0
  read : Nat := 0
  isOver : Bool := false

namespace Rehearsal

variable (r : Rehearsal)

def unread : List Rpc.Message :=
  if r.isOver then [] else (((r.machine.connection? r.line).map (·.sent)).getD []).drop r.read

def hear (message : Rpc.Message) : Rehearsal :=
  if r.isOver then r
  else
    let (answers, isOver) := r.script.react message
    let machine := answers.foldl
      (fun m answer => m.arrive r.line (.octets (Wire.encode answer))) r.machine
    { r with
      machine := if isOver then machine.endStream r.line else machine
      read := r.read + 1
      isOver }

/-- How many times the two sides take turns within a call, at most. -/
def turnLimit : Nat := 64

/-- Lets both sides work until nothing can happen, in at most `most` turns. -/
def exchange : (most : Nat) → Rehearsal → Rehearsal
  | 0, r => r
  | most + 1, r =>
    let r := { r with machine := r.machine.settle }
    match r.unread with
    | [] => r
    | messages => exchange most (messages.foldl hear r)

/-- Lets both sides work and time pass until a task has finished. -/
def finish (t : TaskId) : (most : Nat) → Rehearsal → Rehearsal
  | 0, r => r
  | most + 1, r =>
    let r := exchange turnLimit r
    if r.machine.hasFinished t then r
    else
      match r.machine.nextDeadline? with
      | none => r
      | some deadline =>
        let left := deadline.nanoseconds - r.machine.clock.nanoseconds
        finish t most { r with machine := r.machine.passTime ⟨left⟩ }

/-- A new connection to a server that starts its script, if the client has none and can make one. -/
def redial : Rehearsal :=
  match r.machine.launch with
  | .connects _ =>
    if r.machine.state = .disconnected then
      let line := r.machine.connections.length
      { r with
        machine := { r.machine.connect with launch := .connects line }
        line
        read := 0
        isOver := false }
    else r
  | _ => r

def call (c : Call) : Option Outcome × Rehearsal :=
  let r := if c == .start then r.redial else r
  let t := r.machine.tasks.length
  let r := finish t turnLimit { r with machine := r.machine.call c }
  (r.machine.returned.lookup t, r)

end Rehearsal

end CodeAtlas.Client
