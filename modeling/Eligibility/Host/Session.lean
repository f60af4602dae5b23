import Eligibility.Host.Request

/-!
# Sessions

A session is a sequence of steps taken by one calling program. It keeps the
configuration in force, which a step replaces as a whole or not at all, whether it
was ever replaced, and slots in which the caller stores answers, of whatever kind.
A step that fails changes nothing (`Session.step`).

Whatever a request asks for, it is about one rule, which is obtained first
(`Session.obtain`).
-/

namespace Eligibility.Host

/-- Where the rule of a request comes from. -/
inductive Source where
  | given (origin : Origin)
  /-- A slot whose answer is handed over as the wire form of a rule. -/
  | wireSlot (name : String)
  /-- A slot whose answer is a rule. -/
  | slot (name : String)
deriving Repr, Inhabited

/-- What a step asks for. -/
inductive Action where
  /-- Replaces the configuration, by the defaults if there are no settings. -/
  | configure (settings : Option Mapping)
  /-- Asks whether a configuration has been installed. -/
  | isConfigured
  /-- Puts a rule to a use. -/
  | request (source : Source) (use : Use)
deriving Repr, Inhabited

/-- One step of a session. Its answer goes into the slot `target`, if there is
one. -/
structure Step where
  action : Action
  target : Option String := none
deriving Repr, Inhabited

structure Session where
  config : Config := {}
  slots : List (String × Answer) := []
  /-- Whether a configuration has been installed; until then the defaults are in force. -/
  configured : Bool := false
deriving DecidableEq, Repr, Inhabited

namespace Session

/-- The answer that was last stored in a slot. -/
def stored (session : Session) (name : String) : Except Fault Answer :=
  match session.slots.lookup name with
  | some answer => .ok answer
  | none => .error .emptySlot

/-- The rule that a request is about. -/
def obtain (session : Session) : Source → Except Fault Combination
  | .given origin => origin.obtain session.config
  | .wireSlot name => do
    let s ← (← session.stored name).toText
    (Origin.wire (.text s)).obtain session.config
  | .slot name => do (← session.stored name).toRule

/-- Stores an answer in a slot. -/
def store (session : Session) (target : Option String) (answer : Answer) : Session :=
  match target with
  | some name => { session with slots := (name, answer) :: session.slots }
  | none => session

/-- The configuration that settings ask for. -/
def configOf : Option Mapping → Except Fault Config
  | none => .ok {}
  | some settings => settings.toConfig

/-- The answer to what a step asks for, and the session that it is given in. -/
def act (session : Session) : Action → Except Fault (Session × Answer)
  | .configure settings => do
    return ({ session with config := ← configOf settings, configured := true }, .done)
  | .isConfigured => .ok (session, .verdict session.configured)
  | .request source use => do return (session, ← use.answer (← session.obtain source))

/-- Takes one step. -/
def step (session : Session) (s : Step) : Session × Except Fault Answer :=
  match session.act s.action with
  | .ok (session, answer) => (session.store s.target answer, .ok answer)
  | .error fault => (session, .error fault)

/-- Takes the steps one after the other. -/
def run (session : Session) : List Step → Session × List (Except Fault Answer)
  | [] => (session, [])
  | first :: rest =>
    let (session, answer) := session.step first
    let (session, answers) := session.run rest
    (session, answer :: answers)

end Session

end Eligibility.Host
