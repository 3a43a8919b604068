import CilDisasm.Dialogue.Event
import CilDisasm.Program

/-!
# Dialogues

A dialogue is a program that asks what tokens stand for and reports events. Nothing else
reaches the outside, so its run shows every query in order.
-/

namespace CilDisasm

inductive DialogueRequest where
  | resolve (query : Query)
  | report (event : Event)
deriving DecidableEq, Repr

def dialogueInterface : Interface where
  Request := DialogueRequest
  Reply
    | .resolve query => query.Outcome
    | .report _ => Unit

abbrev Dialogue (α : Type) : Type :=
  Program dialogueInterface α

namespace Dialogue

def resolve (query : Query) : Dialogue query.Outcome :=
  Program.request (I := dialogueInterface) (.resolve query)

def report (event : Event) : Dialogue Unit :=
  Program.request (I := dialogueInterface) (.report event)

def reportAll : List Event -> Dialogue Unit
  | [] => pure ()
  | event :: rest => do
      report event
      reportAll rest

end Dialogue

end CilDisasm
