import HeapLedger.OomPolicy

/-!
# `HeapLedger/OomPolicy/Run.lean` — a policy at work

A policy by itself, without a heap: handlers are installed, asked for and called.
-/

set_option autoImplicit false

namespace HeapLedger.OomPolicy

inductive Step where
  | install (handler : OomHandler)
  | current
  | record
  | fail (size : Nat)

inductive Outcome where
  | done
  | handler (handler : OomHandler)
  | text (text : String)
  | outOfMemory (handler : OomHandler) (size : Nat)
  deriving DecidableEq, Repr

structure Answer where
  outcome : Outcome
  log : List Event

def step (p : OomPolicy) : Step → OomPolicy × Answer
  | .install handler => (p.install handler, ⟨.done, [.handlerReplaced]⟩)
  | .current => (p, ⟨.handler p.current, []⟩)
  | .record => (p, ⟨.text p.record, []⟩)
  | .fail size => (p, ⟨.outOfMemory p.current size, p.current.events size⟩)

def takeSteps (p : OomPolicy) : List Step → List Answer
  | [] => []
  | s :: rest =>
      let (q, answer) := p.step s
      answer :: takeSteps q rest

/-- Takes all steps on a policy that starts with a handler of its own, if one is given. Installing
that one is logged with the first step. -/
def run (first : Option OomHandler) (steps : List Step) : List Answer :=
  match first with
  | none => takeSteps {} steps
  | some handler =>
      let (p, installed) := step {} (.install handler)
      match takeSteps p steps with
      | [] => []
      | answer :: rest => { answer with log := installed.log ++ answer.log } :: rest

end HeapLedger.OomPolicy
