/-
  CursorDiagnostics.Buffer — an editor's buffer: a text, a selection, and who hears about them.

  Those who hear of selections and those who hear of edits are two lists, each in the order of
  registration; whoever wants to hear of both is in both. A new text leaves the selection as it is.
-/

import CursorDiagnostics.Selection

namespace CursorDiagnostics

inductive Listener where
  /-- The attached session. -/
  | session
  /-- Anybody else, by number. -/
  | other (id : Nat)
  deriving DecidableEq, Repr

/-- What there is to hear of. -/
inductive Topic where
  | selection
  | text
  deriving DecidableEq, Repr

structure Buffer where
  text : String
  selection : Selection := .caret 0
  listeners : List Listener := []
  textListeners : List Listener := []
  deriving DecidableEq, Repr

/-- What a buffer tells its listeners. -/
inductive News where
  | selected (selection : Selection)
  | edited
  deriving DecidableEq, Repr

def News.topic : News → Topic
  | .selected _ => .selection
  | .edited => .text

namespace Buffer

/-- Who hears of a topic, in order. -/
def audience (b : Buffer) : Topic → List Listener
  | .selection => b.listeners
  | .text => b.textListeners

def register (b : Buffer) (l : Listener) : Topic → Buffer
  | .selection => { b with listeners := b.listeners ++ [l] }
  | .text => { b with textListeners := b.textListeners ++ [l] }

def listen (b : Buffer) (l : Listener) (topics : List Topic) : Buffer := topics.foldl (register · l) b

/-- The session hears of everything. -/
def attach (b : Buffer) : Buffer := b.listen .session [.selection, .text]

def select (b : Buffer) (selection : Selection) : Buffer × News :=
  ({ b with selection }, .selected selection)

def setText (b : Buffer) (text : String) : Buffer × News := ({ b with text }, .edited)

theorem audience_register (b : Buffer) (l : Listener) (topic topic' : Topic) :
    (b.register l topic).audience topic' = b.audience topic' ++ if topic = topic' then [l] else [] := by
  cases topic <;> cases topic' <;> simp [register, audience]

/-- Who listens to a topic, and how often, is heard after those before. -/
theorem audience_listen (b : Buffer) (l : Listener) (topics : List Topic) (topic : Topic) :
    (b.listen l topics).audience topic = b.audience topic ++ List.replicate (topics.count topic) l := by
  induction topics generalizing b with
  | nil => simp [listen]
  | cons t ts ih =>
    show ((b.register l t).listen l ts).audience topic = _
    rw [ih, audience_register, List.count_cons]
    by_cases h : t = topic
    · simp [h, List.replicate_succ]
    · simp [h]

/-- Listening leaves the text and the selection alone. -/
theorem listen_text (b : Buffer) (l : Listener) (topics : List Topic) :
    (b.listen l topics).text = b.text ∧ (b.listen l topics).selection = b.selection := by
  induction topics generalizing b with
  | nil => exact ⟨rfl, rfl⟩
  | cons t ts ih =>
    have hr : (b.register l t).text = b.text ∧ (b.register l t).selection = b.selection := by
      cases t <;> exact ⟨rfl, rfl⟩
    exact ⟨(ih _).1.trans hr.1, (ih _).2.trans hr.2⟩

theorem audience_attach (b : Buffer) (topic : Topic) : b.attach.audience topic = b.audience topic ++ [.session] := by
  rw [attach, audience_listen]
  cases topic <;> rfl

end Buffer

end CursorDiagnostics
