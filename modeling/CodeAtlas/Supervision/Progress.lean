import CodeAtlas.Supervision.Execution
import CodeAtlas.Time.Basic

/-!
# The progress of a family

All processes take steps in turn. When none of them can, time passes until the next of them wakes.
A family that never comes to rest is stopped after many turns, as if the time had passed.
-/

namespace CodeAtlas.Supervision.Family

open Shell (Command)
open Time (Duration)

/-- Octets without the ends of lines at their end. -/
def withoutLineEnds (bytes : Bytes) : Bytes := (bytes.reverse.dropWhile (· == 10)).reverse

/-- A line of input, whether its end was there, and what comes behind it. Where a backslash keeps
the meaning from a character, the line goes on behind its end. -/
def inputLine (isRaw : Bool) : Bytes → List (UInt8 × Bool) × Bool × Bytes
  | [] => ([], false, [])
  | 92 :: next :: rest =>
    if isRaw then
      if next = 10 then ([(92, false)], true, rest)
      else
        let (line, isWhole, behind) := inputLine isRaw rest
        ((92, false) :: (next, false) :: line, isWhole, behind)
    else
      let (line, isWhole, behind) := inputLine isRaw rest
      (if next = 10 then line else (next, true) :: line, isWhole, behind)
  | octet :: rest =>
    if octet = 10 then ([], true, rest)
    else
      let (line, isWhole, behind) := inputLine isRaw rest
      ((octet, false) :: line, isWhole, behind)

/-- The values of variables from a line: each takes a word, and the last one all the rest. -/
def distribute (dividers : Bytes) : List String → List (UInt8 × Bool) → List (String × Bytes)
  | [], _ => []
  | [last], line =>
    let line := line.dropWhile (isBlank dividers)
    [(last, ((line.reverse.dropWhile (isBlank dividers)).reverse).map Prod.fst)]
  | name :: names, line =>
    let line := line.dropWhile (isBlank dividers)
    let word := line.takeWhile fun mark => !divides dividers mark
    let rest := (line.drop word.length).dropWhile (isBlank dividers)
    let rest := if rest.head?.any (divides dividers) && (line.drop word.length).any
        (divides dividers) then rest.tail else rest
    (name, word.map Prod.fst) :: distribute dividers names rest
where
  divides (dividers : Bytes) : UInt8 × Bool → Bool
    | (octet, isKept) => !isKept && dividers.contains octet
  /-- Whether an octet divides words and counts for nothing else. -/
  isBlank (dividers : Bytes) (mark : UInt8 × Bool) : Bool :=
    divides dividers mark && [32, 9, 10].contains mark.1

def assignLine (job : Job) (names : List String) (line : List (UInt8 × Bool)) : Job :=
  let dividers := octets (String.ofList job.scope.dividers)
  (distribute dividers names line).foldl (fun job (name, value) =>
    job.assign name ((text? value).getD "")) job

def interruption? (job : Job) : Option Nat := job.asked.find? job.answers

variable (family : Family)

def stepJob (job : Job) : Option Family :=
  if job.halted.isSome then none
  else match job.activity with
  | .ended _ => none
  | .running => some (family.resume job)
  | .sleeping wake => if wake ≤ family.clock then some (family.put (job.done 0)) else none
  | .writing stream bytes status =>
    match family.write stream bytes with
    | .all family => some (family.put (job.done status))
    | .none => none
    | .refused => some (family.put (job.finish (.signalled Signal.brokenPipe)))
    | .failed => some (family.put (job.done 1))
  | .copying others =>
    if job.stream 0 == .closed then some (family.put (job.done 1))
    else match family.take (job.stream 0) with
    | (_, [], true) => none
    | (family, [], false) => some (family.put (job.done 0))
    | (family, bytes, _) =>
      match family.write (job.stream 1) bytes with
      | .all family =>
        some (others.foldl (fun family stream =>
          match family.write stream bytes with
          | .all family => family
          | _ => family) family)
      | .none => none
      | .refused => some (family.put (job.finish (.signalled Signal.brokenPipe)))
      | .failed => some (family.put (job.done 1))
  | .gathering before most finish =>
    let (family, bytes, isOpen) := family.takeAtMost (most.map (· - before.length)) (job.stream 0)
    let input := if bytes.isEmpty then before else before ++ bytes
    match finish input (!isOpen) with
    | some (output, status) => some (family.put (job.say output status))
    | none =>
      if bytes.isEmpty then none
      else some (family.put { job with activity := .gathering input most finish })
  | .reading names isRaw =>
    match interruption? job with
    | some _ => some (family.put (job.done 1))
    | none =>
      match job.stream 0 with
      | .source number =>
        let pipe := family.pipe number
        match inputLine isRaw pipe.content with
        | (line, true, behind) =>
          some ((family.setPipe number (pipe.withContent behind)).put
            ((assignLine job names line).done 0))
        | (line, false, _) =>
          if family.hasWriter number then none
          else
            some ((family.setPipe number (pipe.withContent [])).put
              ((assignLine job names line).done 1))
      | _ => some (family.put ((assignLine job names []).done 1))
  | .fetching text =>
    match family.take (job.stream 0) with
    | (_, [], true) => none
    | (family, [], false) =>
      let command := Shell.read ((text? text).getD "")
      some (family.put { job with activity := .running, frames := .run command :: job.frames })
    | (family, bytes, _) =>
      some (family.put { job with
        activity := .running
        frames := .script (text ++ bytes) :: job.frames })
  | .waiting numbers isInterruptible answers =>
    match (if isInterruptible then interruption? job else none) with
    | some number => some (family.put (job.done (128 + number)))
    | none =>
      let statuses := numbers.map fun number =>
        match family.job? number with
        | some other => other.status?
        | none => some (.exit 0)
      if statuses.all Option.isSome then
        let status := (statuses.getLast?.join.map Status.number).getD 0
        let rest := family.jobs.filter fun other =>
          isInterruptible || !numbers.contains other.number
        some ({ family with jobs := rest }.put (job.done (if answers then status else 0)))
      else none
  | .limiting number deadline signal =>
    match family.job? number with
    | none => some (family.put (job.done 0))
    | some other =>
      match other.status? with
      | some status =>
        let rest := family.jobs.filter (·.number != number)
        some ({ family with jobs := rest }.put (job.done status.number))
      | none =>
        if deadline ≤ family.clock then
          some ((family.put (other.signal signal)).put { job with activity := .expiring number })
        else none
  | .expiring number =>
    match (family.job? number).bind (·.status?) with
    | some status =>
      let rest := family.jobs.filter (·.number != number)
      let isKilled := status.signal == some Signal.kill
      some ({ family with jobs := rest }.put (job.done (if isKilled then status.number else 124)))
    | none => none
  | .collecting pipe number command =>
    match (family.job? number).bind (·.status?) with
    | some status =>
      if family.hasWriter pipe then none
      else
        let text := (text? (withoutLineEnds (family.pipe pipe).content)).getD ""
        let job := { job with
          activity := .running
          captureStatus := status.number
          frames := .run (command text) :: job.frames }
        some ({ family with
          jobs := family.jobs.filter (·.number != number)
          pipes := family.pipes.filter (·.1 != pipe) }.put job)
    | none => none
  | .repeating bytes =>
    if job.stream 1 == .nowhere then none
    else
      match family.write (job.stream 1) (List.replicate 512 bytes).flatten with
      | .all family => some family
      | .none => none
      | .refused => some (family.put (job.finish (.signalled Signal.brokenPipe)))
      | .failed => some (family.put (job.done 1))

def turn : Option Family :=
  let (family, hasMoved) := family.jobs.foldl (fun (family, hasMoved) job =>
    match (family.job? job.number).bind family.stepJob with
    | some family => (family, true)
    | none => (family, hasMoved)) (family, false)
  if hasMoved then some family else none

def nextWake? : Option Nat :=
  (family.jobs.filterMap fun job =>
    match job.halted, job.activity with
    | none, .sleeping wake => some wake
    | none, .limiting _ deadline _ => some deadline
    | _, _ => none).min?

/-- How many turns processes may take between two looks at them. -/
def turnLimit : Nat := 300000

def runUntil (stop : Family → Bool) (limit : Nat) : (most : Nat) → Family → Family
  | 0, family => { family with clock := max family.clock limit }
  | most + 1, family =>
    if stop family then family
    else
      match family.turn with
      | some family => runUntil stop limit most family
      | none =>
        match family.nextWake? with
        | some wake =>
          if wake ≤ limit then
            runUntil stop limit most { family with clock := max family.clock wake }
          else { family with clock := max family.clock limit }
        | none => { family with clock := max family.clock limit }

def run (stop : Family → Bool) (time : Duration) : Family :=
  runUntil stop (family.clock + time.nanoseconds) turnLimit family

end CodeAtlas.Supervision.Family
