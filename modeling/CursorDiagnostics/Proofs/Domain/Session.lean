/-
  CursorDiagnostics.Proofs.Domain.Session — no step of a host uses an operation outside its domain.

  A session counts its builds and loads in a word, finds a message where it has found a span, and resolves the
  records of a load by a rope. Here a host takes its steps by operations that have a domain, and has no reply when
  one of them is used outside it. As long as the texts are not too long, and there are fewer builds and loads than
  words, it replies to every step as it does otherwise:

  - `step?_eq`: to one step, if the index has been reached by loads and drops (`Index.Reached`).
  - `step_reached`: which it then has after the step too.
  - `run?_eq`: to every run.
-/

import CursorDiagnostics.Proofs.Domain.Coordinates
import CursorDiagnostics.Proofs.Host.Attachment
import CursorDiagnostics.Proofs.Host.Supersession

namespace CursorDiagnostics

variable (rope : String → Rope)

/-! ## The operations of a session -/

namespace Session

def startBuild? (s : Session) : Option (Turn Unit) := do
  let sequence ← Word.add? s.sequence 1
  let s := { s with sequence, index := .empty, message := none }
  return { session := s, result := ()
           events := [s.event .cleared]
           journal := [⟨.debug, Log.target, "build started, diagnostics cleared",
             [("sequence", toString s.sequence)]⟩] }

def openLoad? (s : Session) : Option (Turn Ticket) := do
  let sequence ← Word.add? s.sequence 1
  return ⟨{ s with sequence }, ⟨sequence⟩, [], []⟩

def closeLoad? (s : Session) (t : Ticket) (records : Except Failure (List Record)) (text : String) :
    Option (Turn (Except Failure Outcome)) :=
  if t.sequence ≠ s.sequence then return s.dropLoad t
  else do
    match ← (Guarded.inside records >>= Index.ofRecords? (rope text)).run with
    | .ok index => return s.applyLoad index
    | .error e => return s.failLoad e

def load? (s : Session) (file : Log.File) (text : String) : Option (Turn (Except Failure Outcome)) := do
  let t ← s.openLoad?
  let u ← t.session.closeLoad? rope t.result file.records text
  return t.andThen fun _ _ => { u with journal := file.journal ++ u.journal }

def observed? (s : Session) (selection : Selection) : Option (Turn (Option String)) := do
  let message ← s.index.messageFor? selection.start selection.stop
  if message = s.message then return ⟨s, message, [], []⟩
  else return ⟨{ s with message }, message, [s.event (.messageChanged message)], []⟩

def loadAndObserve? (s : Session) (file : Log.File) (text : String) (selection : Selection) :
    Option (Turn (Except Failure Outcome)) := do
  let t ← s.load? rope file text
  match t.result with
  | .ok outcome =>
    let u ← t.session.observed? selection
    return t.andThen fun _ _ => ⟨u.session, .ok outcome, u.events, u.journal⟩
  | .error e => return t.andThen fun s _ => ⟨s, .error e, [], []⟩

def popup? (s : Session) (selection : Selection) : Option Request := do
  return .popup (.ofMessage (← s.index.messageFor? selection.start selection.stop) s.settings.popupMaxWidth)

variable {rope} {s : Session}

theorem startBuild?_eq (room : s.sequence + 1 < Text.Decimal.wordLimit) : s.startBuild? = some s.startBuild := by
  unfold startBuild?
  rw [Word.add?_of_lt room]
  rfl

theorem openLoad?_eq (room : s.sequence + 1 < Text.Decimal.wordLimit) : s.openLoad? = some s.openLoad := by
  unfold openLoad?
  rw [Word.add?_of_lt room]
  rfl

theorem closeLoad?_eq {text : String} (inside : (rope text).Inside text) (t : Ticket)
    (records : Except Failure (List Record)) : s.closeLoad? rope t records text = some (s.closeLoad t records text) := by
  unfold closeLoad? closeLoad
  split
  · rfl
  · have hread : Guarded.inside records >>= Index.ofRecords? (rope text) =
        Guarded.inside (records.bind (Index.ofRecords (.ofText text))) :=
      Guarded.bind_inside fun rs _ => Index.ofRecords?_eq inside rs
    rw [hread]
    cases records.bind (Index.ofRecords (.ofText text)) <;> rfl

theorem load?_eq {text : String} (inside : (rope text).Inside text) (room : s.sequence + 1 < Text.Decimal.wordLimit)
    (file : Log.File) : s.load? rope file text = some (s.load file text) := by
  unfold load?
  rw [openLoad?_eq room, Option.bind_eq_bind, Option.bind_some, closeLoad?_eq inside]
  rfl

theorem observed?_eq (ha : s.index.Aligned) (selection : Selection) :
    s.observed? selection = some (s.observe selection) := by
  unfold observed?
  rw [Index.messageFor?_eq ha, Option.bind_eq_bind, Option.bind_some]
  simp only [observe]
  split <;> rfl

theorem popup?_eq (ha : s.index.Aligned) (selection : Selection) : s.popup? selection = some (s.popup selection) := by
  unfold popup?
  rw [Index.messageFor?_eq ha]
  rfl

theorem load_aligned (ha : s.index.Aligned) (file : Log.File) (text : String) :
    (s.load file text).session.index.Aligned := by
  rcases Host.load_settles s file text with ⟨_, -, -, hx⟩ | ⟨-, hi⟩
  · exact hx.aligned
  · exact hi ▸ ha

theorem loadAndObserve?_eq {text : String} (inside : (rope text).Inside text)
    (room : s.sequence + 1 < Text.Decimal.wordLimit) (ha : s.index.Aligned) (file : Log.File) (selection : Selection) :
    s.loadAndObserve? rope file text selection = some (s.loadAndObserve file text selection) := by
  unfold loadAndObserve? loadAndObserve
  rw [load?_eq inside room, Option.bind_eq_bind, Option.bind_some]
  have hobserve := observed?_eq (load_aligned ha file text) selection
  unfold Turn.andThen
  cases (s.load file text).result with
  | ok outcome => simp [hobserve]
  | error e => simp

end Session

/-! ## The steps of a host -/

namespace Host

def hear? (s : Session) : News → Option (Turn Unit)
  | .selected selection => do
    let t ← s.observed? selection
    return ⟨t.session, (), t.events, t.journal⟩
  | .edited => return s.invalidate

def tell? (news : News) (r : Reply) : Listener → Option Reply
  | .session =>
    if r.host.poisoned then return { r with journal := r.journal ++ [ignored] }
    else do return r.forward (← hear? r.host.session news)
  | .other id => return tell news r (.other id)

def spread? (h : Host) (change : Buffer × News) : Option Reply :=
  (change.1.audience change.2.topic).foldlM (tell? change.2) { host := { h with buffer := change.1 } }

def step? (h : Host) : Step → Option Reply
  | .startBuild => do return h.direct (← h.session.startBuild?) fun _ => .nothing
  | .openLoad => do
    let t ← h.session.openLoad?
    return { h with tickets := h.tickets ++ [t.result] }.direct t fun k => .ticket h.tickets.length k.sequence
  | .closeLoad ticket records text =>
    match h.tickets[ticket]? with
    | some t => do return h.direct (← h.session.closeLoad? rope t records (text.getD h.buffer.text)) .outcome
    | none => return { host := h }
  | .load file text => do return h.direct (← h.session.load? rope file (text.getD h.buffer.text)) .outcome
  | .loadHere file => do
    return h.direct (← h.session.loadAndObserve? rope file h.buffer.text h.buffer.selection) .outcome
  | .observe selection => do return h.direct (← h.session.observed? selection) .message
  | .select selection => h.spread? (h.buffer.select selection)
  | .setText text => h.spread? (h.buffer.setText (text.getD h.buffer.text))
  | .messagesAt offsets => do
    return { host := h, answer := .messages (← offsets.mapM h.session.index.messageAt?) }
  | .messageFor selection => do
    return { host := h, answer := .message (← h.session.index.messageFor? selection.start selection.stop) }
  | .showPopup selection => do return { host := h, answer := .requests [← h.session.popup? selection] }
  -- the other steps use no operation that has a domain
  | s => return h.step s

def run? : Host → List Step → Option (List Reply)
  | _, [] => return []
  | h, s :: steps => do
    let r ← h.step? rope s
    return r :: (← run? r.host steps)

variable {rope}

theorem hear?_eq {s : Session} (ha : s.index.Aligned) (news : News) : hear? s news = some (hear s news) := by
  cases news with
  | selected selection => simp [hear?, hear, Session.observed?_eq ha]
  | edited => rfl

theorem hear_aligned {s : Session} (ha : s.index.Aligned) (news : News) : (hear s news).session.index.Aligned := by
  cases news with
  | selected selection =>
    show (s.observe selection).session.index.Aligned
    rw [Session.observe_session]
    exact ha
  | edited =>
    show s.invalidate.session.index.Aligned
    rw [invalidate_index ha]
    exact Index.aligned_empty

theorem tell?_eq {r : Reply} (ha : r.host.session.index.Aligned) (news : News) (l : Listener) :
    tell? news r l = some (tell news r l) := by
  cases l with
  | session =>
    simp only [tell?, tell, hear?_eq ha]
    split <;> rfl
  | other id => rfl

theorem tell_aligned {r : Reply} (ha : r.host.session.index.Aligned) (news : News) (l : Listener) :
    (tell news r l).host.session.index.Aligned := by
  rw [tell_host]
  split
  · exact hear_aligned ha news
  · exact ha

theorem foldlM_tell? (news : News) (ls : List Listener) {r : Reply} (ha : r.host.session.index.Aligned) :
    ls.foldlM (tell? news) r = some (ls.foldl (tell news) r) := by
  induction ls generalizing r with
  | nil => rfl
  | cons l ls ih =>
    rw [List.foldlM_cons, tell?_eq ha, List.foldl_cons]
    exact ih (tell_aligned ha news l)

/-- The step has a reply if there is a word for the next build or load, and the text that a load is ended with is
    not too long. -/
theorem step?_eq (inside : ∀ text, text.length < 2 ^ 63 → (rope text).Inside text) {h : Host}
    (ha : h.session.index.Aligned) {s : Step}
    (room : s.bumps = true → h.session.sequence + 1 < Text.Decimal.wordLimit)
    (short : ∀ records text, h.given s = some (records, text) → text.length < 2 ^ 63) :
    h.step? rope s = some (h.step s) := by
  cases s with
  | startBuild => simp [step?, step, Session.startBuild?_eq (room rfl)]
  | openLoad => simp [step?, step, Session.openLoad?_eq (room rfl)]
  | closeLoad ticket records text =>
    have hin := inside _ (short _ _ rfl)
    simp only [step?, step]
    cases h.tickets[ticket]? with
    | some t => simp [Session.closeLoad?_eq hin]
    | none => rfl
  | load file text =>
    have hin := inside _ (short _ _ rfl)
    simp [step?, step, Session.load?_eq hin (room rfl)]
  | loadHere file =>
    have hin := inside _ (short _ _ rfl)
    simp [step?, step, Session.loadAndObserve?_eq hin (room rfl) ha]
  | observe selection => simp [step?, step, Session.observed?_eq ha]
  | select selection => exact foldlM_tell? _ _ (r := { host := { h with buffer := _ } }) ha
  | setText text => exact foldlM_tell? _ _ (r := { host := { h with buffer := _ } }) ha
  | messagesAt offsets => simp [step?, step, Index.mapM_messageAt? ha]
  | messageFor selection => simp [step?, step, look, Index.messageFor?_eq ha]
  | showPopup selection => simp [step?, step, Session.popup?_eq ha]
  | _ => rfl

/-! ## Runs -/

theorem step_reached {h : Host} (hx : h.session.index.Reached) (s : Step) : (h.step s).host.session.index.Reached := by
  by_cases hd : Drops h s
  · rw [index_of_drops hx.aligned hd]
    exact .empty
  · rcases index_of_not_drops hd with ⟨_, _, -, hholds⟩ | ⟨-, hi⟩
    · exact hholds.reached
    · exact hi ▸ hx

theorem reached_after {h : Host} (hx : h.session.index.Reached) (steps : List Step) :
    (h.after steps).session.index.Reached :=
  after_of_steps_keep (P := fun h' => h'.session.index.Reached) hx fun s _ _ hx' => step_reached hx' s

end Host

def Step.text? : Step → Option String
  | .closeLoad _ _ text | .load _ text | .setText text => text
  | _ => none

def Step.Short (s : Step) : Prop := ∀ text, s.text? = some text → text.length < 2 ^ 63

namespace Host

variable {rope}

theorem given_short {h : Host} (hb : h.buffer.text.length < 2 ^ 63) {s : Step} (hs : s.Short)
    {records : Except Failure (List Record)} {text : String} (hg : h.given s = some (records, text)) :
    text.length < 2 ^ 63 := by
  have hget : ∀ t : Option String, (∀ text, t = some text → text.length < 2 ^ 63) →
      (t.getD h.buffer.text).length < 2 ^ 63 := by
    intro t ht
    cases t with
    | some text => exact ht text rfl
    | none => exact hb
  cases s with
  | closeLoad _ _ shown | load _ shown =>
    cases hg
    exact hget shown hs
  | loadHere _ =>
    cases hg
    exact hb
  | _ => cases hg

theorem buffer_short {h : Host} (hb : h.buffer.text.length < 2 ^ 63) {s : Step} (hs : s.Short) :
    (h.step s).host.buffer.text.length < 2 ^ 63 := by
  rw [buffer_step]
  cases s with
  | setText text =>
    cases text with
    | some text => exact hs text rfl
    | none => exact hb
  | listen topics =>
    show (h.buffer.listen _ topics).text.length < _
    rwa [(h.buffer.listen_text _ topics).1]
  | _ => exact hb

theorem run?_eq (inside : ∀ text, text.length < 2 ^ 63 → (rope text).Inside text) {h : Host}
    (hx : h.session.index.Reached) (hb : h.buffer.text.length < 2 ^ 63) {steps : List Step}
    (room : h.session.sequence + steps.countP Step.bumps < Text.Decimal.wordLimit) (short : ∀ s ∈ steps, s.Short) :
    h.run? rope steps = some (h.run steps) := by
  induction steps generalizing h with
  | nil => rfl
  | cons s steps ih =>
    obtain ⟨hs, hsteps⟩ := List.forall_mem_cons.mp short
    rw [List.countP_cons] at room
    have hstep : h.step? rope s = some (h.step s) := by
      refine step?_eq inside hx.aligned (fun hbumps => ?_) fun _ _ => given_short hb hs
      rw [if_pos hbumps] at room
      omega
    have hrun : (h.step s).host.run? rope steps = some ((h.step s).host.run steps) := by
      refine ih (step_reached hx s) (buffer_short hb hs) ?_ hsteps
      rw [step_sequence]
      omega
    simp [run?, run, hstep, hrun]

/-- No operation is used outside its domain: with a rope that keeps every text of fewer than two to the 63
    characters, each operation on lines, positions and offsets has its result for all arguments; an index
    that loads and drops have led to has a message for any two ends, is replaced with any records, and has spans that
    are of some length; and a host that begins fewer builds and loads than there are words replies to every step of
    every run, and has such an index after it. -/
theorem never_outside (rope : String → Rope) (keeps : ∀ text, text.length < 2 ^ 63 → (rope text).Keeps text) :
    (∀ text, text.length < 2 ^ 63 → (rope text).Inside text) ∧
    (∀ x : Index, x.Reached →
      (∀ a b, x.messageFor? a b = some (x.messageFor a b)) ∧
      (∀ text records, text.length < 2 ^ 63 → x.replace? (rope text) records = some (x.replace (.ofText text) records)) ∧
      ∀ s ∈ x.spans, s.length? = some s.length) ∧
    (∀ settings text steps, text.length < 2 ^ 63 → (∀ s ∈ steps, s.Short) → steps.countP Step.bumps < 2 ^ 64 →
      (start settings text).run? rope steps = some ((start settings text).run steps) ∧
        ((start settings text).after steps).session.index.Reached) := by
  have inside : ∀ text, text.length < 2 ^ 63 → (rope text).Inside text := fun text short => (keeps text short).inside short
  refine ⟨inside, fun x hx => ⟨Index.messageFor?_eq hx.aligned, fun text records short => ?_, hx.length?⟩, ?_⟩
  · exact Index.replace?_eq (inside text short) x records
  · intro settings text steps hb short few
    refine ⟨run?_eq inside .empty hb ?_ short, reached_after .empty steps⟩
    rw [show (start settings text).session.sequence = 0 from rfl, Nat.zero_add]
    exact few

def widest : List Step :=
  [.startBuild, .load ⟨"e", .ok "m,1:0,2:18446744073709551615,x"⟩ none, .attach, .select ⟨2 ^ 64 - 1, 0⟩,
    .messagesAt [0, 4, 2 ^ 64 - 1], .setText (some "b")]

/-- The text ends before the column of the record, and the caret at its end is still in the domain. -/
theorem widest_never_outside :
    (Rope.ofText "a\r\nb").offset? ⟨2, 2 ^ 64 - 1⟩ = Guarded.inside (.ok 4) ∧
      Index.messageFor? ⟨[⟨0, 4⟩], ["x"]⟩ (2 ^ 64 - 1) 0 = some none ∧
      Index.messageFor? ⟨[⟨0, 4⟩], ["x"]⟩ 4 4 = some (some "x") ∧
      (start {} "a\r\nb").run? Rope.ofText widest = some ((start {} "a\r\nb").run widest) := by
  obtain ⟨lines, indexes, runs⟩ := never_outside Rope.ofText fun text _ => Rope.keeps_ofText text
  have loaded : (Index.empty.replace (.ofText "a\r\nb") [⟨"m", ⟨1, 0⟩, ⟨2, 2 ^ 64 - 1⟩, "x"⟩]).2 =
      ⟨[⟨0, 4⟩], ["x"]⟩ := by decide
  have hx : Index.Reached ⟨[⟨0, 4⟩], ["x"]⟩ := loaded ▸ .replace .empty _ _
  have short : ∀ s ∈ widest, s.Short := by
    intro s hs text ht
    simp only [widest, List.mem_cons, List.not_mem_nil, or_false] at hs
    rcases hs with rfl | rfl | rfl | rfl | rfl | rfl <;> cases ht
    decide
  refine ⟨(lines "a\r\nb" (by decide)).offset _, ?_, ?_, (runs {} "a\r\nb" widest (by decide) short (by decide)).1⟩
  · exact (indexes _ hx).1 _ _
  · exact (indexes _ hx).1 _ _

end Host

end CursorDiagnostics
