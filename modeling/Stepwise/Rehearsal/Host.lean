import Stepwise.Host

/-!
A host for rehearsals: its answers are prepared beforehand, and it keeps a record
of what the script did with it. Answers may come late, never, or only once they
are fed in; some ask for the run to be cancelled. Two small libraries of native
functions exercise what natives can do.
-/
namespace Stepwise.Rehearsal

/-- What happened between a script and its host. -/
inductive Event where
  | printed (p : Primitive)
  | asked
  | logged (values : List Value)
deriving Repr

/-- An answer to a question of the script; there may be none. -/
abbrev Reply := Option Primitive

/-- A prepared answer. -/
inductive Prepared where
  | now (reply : Reply)
  | later (polls : Nat) (reply : Reply)
  | fed
  | cancelThen (reply : Reply)
  | cancelAndWait
deriving Repr

/-- The host: the answers still prepared, if it answers at all, the answers fed
    in, the events with the latest first, and how many instances it has made. -/
structure State where
  prepared : Option (List Prepared)
  feed : List Reply
  events : List Event
  serial : Nat
deriving Repr

/-- A job of the host. -/
inductive Job where
  | ready (a : Answer)
  | countdown (polls : Nat) (a : Answer)
  | fed
  | never
deriving Repr

/-- The answer that a reply is. -/
def answerOf : Reply → Answer
  | some p => .data p
  | none => .nothing

/-- The answer that an optional value is. -/
def valueOf : Option Value → Answer
  | some v => .value v
  | none => .nothing

namespace State

/-- Takes an event down. -/
def record (s : State) (e : Event) : State :=
  { s with events := e :: s.events }

/-- The events since they were last taken, in order. -/
def takeEvents (s : State) : List Event × State :=
  (s.events.reverse, { s with events := [] })

/-- Feeds an answer in. -/
def supply (s : State) (reply : Reply) : State :=
  { s with feed := s.feed ++ [reply] }

/-- A new text of the host. -/
def text (s : State) (t : String) : Value × State :=
  (.string t ⟨.host, s.serial⟩, { s with serial := s.serial + 1 })

end State

/-- The sum of the numbers among some values, from the left. -/
def sum (values : List Value) : Float :=
  values.foldl (fun total v => match v with | .number x => total + x | _ => total) 0

/-- How often a job is not ready, as told by a value. -/
def pollCount : Option Value → Nat
  | some (.number x) => x.toUInt64.toNat
  | _ => 0

/-- Starts a native function. -/
def call (s : State) (f : Native) (arguments : List Value) : Effect State Job :=
  let first := arguments.head?
  match f.name with
  | "Math.sum" => ⟨s, .ready (.value (.number (sum arguments))), false⟩
  | "Math.first" => ⟨s, .ready (valueOf first), false⟩
  | "Math.kind" =>
    match first with
    | none => ⟨s, .ready .nothing, false⟩
    | some v =>
      let (kind, s) := s.text v.tag.name
      ⟨s, .ready (.value kind), false⟩
  | "Host.none" => ⟨s, .ready .nothing, false⟩
  | "Host.fail" =>
    ⟨s, .ready (.value (.error (.raised (",".intercalate (arguments.map Value.render))))), false⟩
  | "Host.ret" => ⟨s, .ready (.value (.returned (first.getD .null))), false⟩
  | "Host.retret" => ⟨s, .ready (.value (.returned (.returned (first.getD .null)))), false⟩
  | "Host.log" => ⟨s.record (.logged arguments), .ready .nothing, false⟩
  | "Host.cancel" => ⟨s, .ready (valueOf first), true⟩
  | "Host.later" => ⟨s, .countdown (pollCount first) (valueOf arguments[1]?), false⟩
  | name =>
    let (path, s) := s.text (String.ofList (name.toList.map fun c => if c = '.' then '/' else c))
    ⟨s, .ready (.value path), false⟩

/-- Starts to answer a question. -/
def ask (s : State) : Effect State Job :=
  match s.prepared with
  | none => ⟨s, .ready .nothing, false⟩
  | some prepared =>
    let s := { s.record .asked with prepared := some (prepared.drop 1) }
    match prepared.head? with
    | none => ⟨s, .ready .nothing, false⟩
    | some (.now reply) => ⟨s, .ready (answerOf reply), false⟩
    | some (.later polls reply) => ⟨s, .countdown polls (answerOf reply), false⟩
    | some .fed => ⟨s, .fed, false⟩
    | some (.cancelThen reply) => ⟨s, .ready (answerOf reply), true⟩
    | some .cancelAndWait => ⟨s, .never, true⟩

/-- Polls a job. -/
def pollJob (s : State) : Job → Effect State (Poll Job)
  | .ready a => ⟨s, .ready a, false⟩
  | .countdown 0 a => ⟨s, .ready a, false⟩
  | .countdown (polls + 1) a => ⟨s, .pending (.countdown polls a) true, false⟩
  | .fed =>
    match s.feed with
    | [] => ⟨s, .pending .fed false, false⟩
    | reply :: feed => ⟨{ s with feed := feed }, .ready (answerOf reply), false⟩
  | .never => ⟨s, .pending .never false, false⟩

/-- The host for rehearsals. -/
def host : Host State Job where
  print s p := ⟨s.record (.printed p), (), false⟩
  start s r :=
    match r with
    | .input => ask s
    | .call f arguments => call s f arguments
  poll := pollJob

/-- The functions of the first library are always the same. -/
def mathResolver : Resolver :=
  .ofFunctions [⟨"Math.sum", ⟨.host, 0⟩⟩, ⟨"Math.first", ⟨.host, 1⟩⟩, ⟨"Math.kind", ⟨.host, 2⟩⟩]

/-- Whether the second library has a function at a path behind its own name. -/
def isOffered : List String → Bool
  | ["none"] | ["fail"] | ["ret"] | ["retret"] | ["log"] | ["cancel"] | ["later"] => true
  | "path" :: _ => true
  | _ => false

/-- The functions of the second library are made anew for every look-up. -/
def hostResolver : Resolver :=
  .maker fun path => if isOffered path.tail then some (".".intercalate path) else none

/-- Both libraries. -/
def registry : Registry :=
  (Registry.empty.register "Math" mathResolver).register "Host" hostResolver

/-- A host with prepared answers that has done nothing yet. The instances with the
    first numbers are the functions of the first library. -/
def State.start (prepared : Option (List Prepared)) : State :=
  ⟨prepared, [], [], 3⟩

end Stepwise.Rehearsal
