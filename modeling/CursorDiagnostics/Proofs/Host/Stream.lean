/-
  CursorDiagnostics.Proofs.Host.Stream — what a subscriber can know of a session from its events alone.

  A subscriber notes how many diagnostics there are and what the message is, and changes the note with
  each event (`Glimpse.note`). The events that reach it are those raised since it subscribed, each once
  and in their order (`heard_run`), and they leave no change out:
  - `Moves.noteAll_eq`: after the events of a stretch of work the note is what the session shows.
  - `Moves.allNews`: an event about the message brings another message, and one about dropped
    diagnostics finds some noted.
  - `Moves.pairwise_follows`: the counts of the events never fall, and a build start raises them.
  - `closes_of_raised`: the event that ends a load carries the count of its ticket.
-/

import CursorDiagnostics.Proofs.Host.Moves
import CursorDiagnostics.Proofs.Host.Supersession

namespace CursorDiagnostics

/-! ## Notes -/

def Glimpse.note (g : Glimpse) : Change → Glimpse
  | .cleared | .invalidated => ⟨0, none⟩
  | .replaced count => ⟨count, none⟩
  | .loadFailed _ => g
  | .messageChanged message => { g with message := message }

def Glimpse.noteAll (g : Glimpse) (es : List Event) : Glimpse := es.foldl (fun g e => g.note e.change) g

/-- A change of the message is to another one, and diagnostics are dropped only if there are some. -/
def Change.IsNews (g : Glimpse) : Change → Prop
  | .messageChanged message => message ≠ g.message
  | .invalidated => 0 < g.length
  | _ => True

def AllNews : Glimpse → List Event → Prop
  | _, [] => True
  | g, e :: es => e.change.IsNews g ∧ AllNews (g.note e.change) es

/-- A later event has no lower count, and a higher one if it tells of a build start. -/
def Event.Follows (e' e : Event) : Prop :=
  e.sequence ≤ e'.sequence ∧ (e'.change = .cleared → e.sequence < e'.sequence)

def Change.endsLoad : Change → Bool
  | .replaced _ | .loadFailed _ => true
  | _ => false

theorem Glimpse.noteAll_append (g : Glimpse) (es fs : List Event) :
    g.noteAll (es ++ fs) = (g.noteAll es).noteAll fs := List.foldl_append

theorem allNews_append {g : Glimpse} {es fs : List Event} :
    AllNews g (es ++ fs) ↔ AllNews g es ∧ AllNews (g.noteAll es) fs := by
  induction es generalizing g with
  | nil => simp [AllNews, Glimpse.noteAll]
  | cons e es ih => simp only [List.cons_append, AllNews, ih, and_assoc]; rfl

/-! ## The events of a stretch of work -/

namespace Session

variable {s s' : Session} {es : List Event}

theorem Moves.noteAll_eq (h : Moves s es s') : s.glimpse.noteAll es = s'.glimpse := by
  induction h with
  | andThen _ _ ih ih' => rw [Glimpse.noteAll_append, ih, ih']
  | _ => rfl

theorem Moves.allNews (h : Moves s es s') (hq : s.Quiet) : AllNews s.glimpse es := by
  induction h with
  | stay | subscribe | openLoad => trivial
  | startBuild | applyLoad | failLoad => exact ⟨trivial, trivial⟩
  | observe s selection other => exact ⟨other, trivial⟩
  | invalidate s held =>
    have hne : s.index.isEmpty = false := by
      cases hs : s.index.isEmpty with
      | true => exact absurd ⟨hs, hq hs⟩ held
      | false => rfl
    exact ⟨List.length_pos_iff.mpr (List.isEmpty_eq_false_iff.mp hne), trivial⟩
  | andThen hm _ ih ih' => exact allNews_append.mpr ⟨ih hq, hm.noteAll_eq ▸ ih' (hm.quiet hq)⟩

/-- The counts of the events lie between those of the session before and after. -/
theorem Moves.sequence_le (h : Moves s es s') :
    s.sequence ≤ s'.sequence ∧ ∀ e ∈ es, s.sequence ≤ e.sequence ∧ e.sequence ≤ s'.sequence ∧
      (e.change = .cleared → s.sequence < e.sequence) := by
  induction h with
  | stay | subscribe => exact ⟨Nat.le_refl _, fun e he => absurd he List.not_mem_nil⟩
  | openLoad => exact ⟨Nat.le_succ _, fun e he => absurd he List.not_mem_nil⟩
  | startBuild s =>
    refine ⟨Nat.le_succ _, fun e he => ?_⟩
    obtain rfl := List.mem_singleton.mp he
    exact ⟨Nat.le_succ _, Nat.le_refl _, fun _ => Nat.lt_succ_self _⟩
  | applyLoad | failLoad | observe | invalidate =>
    refine ⟨Nat.le_refl _, fun e he => ?_⟩
    obtain rfl := List.mem_singleton.mp he
    exact ⟨Nat.le_refl _, Nat.le_refl _, fun hc => nomatch hc⟩
  | andThen _ _ ih ih' =>
    refine ⟨Nat.le_trans ih.1 ih'.1, fun e he => ?_⟩
    rcases List.mem_append.mp he with he | he
    · obtain ⟨h1, h2, h3⟩ := ih.2 e he
      exact ⟨h1, Nat.le_trans h2 ih'.1, h3⟩
    · obtain ⟨h1, h2, h3⟩ := ih'.2 e he
      exact ⟨Nat.le_trans ih.1 h1, h2, fun hc => Nat.lt_of_le_of_lt ih.1 (h3 hc)⟩

theorem Moves.pairwise_follows (h : Moves s es s') : es.Pairwise fun e e' => e'.Follows e := by
  induction h with
  | stay | subscribe | openLoad => exact .nil
  | startBuild | applyLoad | failLoad | observe | invalidate => exact List.pairwise_singleton _ _
  | andThen hm hm' ih ih' =>
    refine List.pairwise_append.mpr ⟨ih, ih', fun e he e' he' => ?_⟩
    have hle := (hm.sequence_le.2 e he).2.1
    obtain ⟨hle', -, hc⟩ := hm'.sequence_le.2 e' he'
    exact ⟨Nat.le_trans hle hle', fun h => Nat.lt_of_le_of_lt hle (hc h)⟩

end Session

/-! ## Delivery -/

def Notice.delivery : Notice → Option (Nat × Event)
  | .event subscriber e _ => some (subscriber, e)
  | _ => none

def deliveries (notices : List Notice) : List (Nat × Event) := notices.filterMap Notice.delivery

/-- Each event for every one of `n` subscribers before the next event. -/
def forEach (n : Nat) (es : List Event) : List (Nat × Event) := es.flatMap fun e => (List.range n).map (·, e)

def addressed (k : Nat) (ds : List (Nat × Event)) : List Event := (ds.filter (·.1 == k)).map (·.2)

@[simp] theorem deliveries_append (ns ms : List Notice) : deliveries (ns ++ ms) = deliveries ns ++ deliveries ms :=
  List.filterMap_append

@[simp] theorem forEach_nil (n : Nat) : forEach n [] = [] := rfl

theorem addressed_append (k : Nat) (ds ds' : List (Nat × Event)) :
    addressed k (ds ++ ds') = addressed k ds ++ addressed k ds' := by
  simp [addressed]

theorem addressed_map_range (k n : Nat) (e : Event) :
    addressed k ((List.range n).map (·, e)) = if k < n then [e] else [] := by
  induction n with
  | zero => rfl
  | succ n ih =>
    rw [List.range_succ, List.map_append, addressed_append, ih]
    rcases Nat.lt_trichotomy k n with h | rfl | h
    · simp [addressed, h, Nat.lt_succ_of_lt h, Nat.ne_of_gt h]
    · simp [addressed]
    · simp [addressed, Nat.not_lt_of_gt h, Nat.ne_of_lt h, show ¬ k < n + 1 by omega]

/-- A subscriber is brought each event once and in order, and one that is not yet there none. -/
theorem addressed_forEach (k n : Nat) (es : List Event) : addressed k (forEach n es) = if k < n then es else [] := by
  induction es with
  | nil => simp [addressed]
  | cons e es ih =>
    show addressed k ((List.range n).map (·, e) ++ forEach n es) = _
    rw [addressed_append, addressed_map_range, ih]
    split <;> rfl

namespace Host

@[simp] theorem deliveries_deliver (n : Nat) (seen : Option Glimpse) (es : List Event) :
    deliveries (deliver n seen es) = forEach n es := by
  simp only [deliveries, deliver, forEach, List.filterMap_flatMap, List.filterMap_map]
  congr 1
  funext e
  exact congrFun (List.filterMap_eq_map (f := fun i => (i, e))) _

theorem hear_hear_events (s : Session) (news : News) : (hear (hear s news).session news).events = [] := by
  rw [hear_again]

theorem hear_subscribers (s : Session) (news : News) : (hear s news).session.subscribers = s.subscribers := by
  cases news with
  | selected selection =>
    show (s.observe selection).session.subscribers = _
    rw [Session.observe_session]
  | edited =>
    show s.invalidate.session.subscribers = _
    rw [Session.invalidate_session]
    split <;> rfl

theorem closeLoad_subscribers (s : Session) (t : Ticket) (records : Except Failure (List Record)) (text : String) :
    (s.closeLoad t records text).session.subscribers = s.subscribers := by
  rcases s.closeLoad_cases t records text with ⟨-, h⟩ | ⟨-, _, _, -, -, h⟩ | ⟨-, _, -, h⟩ <;> rw [h] <;> rfl

theorem load_subscribers (s : Session) (file : Log.File) (text : String) :
    (s.load file text).session.subscribers = s.subscribers :=
  closeLoad_subscribers s.openLoad.session s.openLoad.result file.records text

theorem loadAndObserve_subscribers (s : Session) (file : Log.File) (text : String) (selection : Selection) :
    (s.loadAndObserve file text selection).session.subscribers = s.subscribers := by
  rcases s.loadAndObserve_cases file text selection with ⟨_, _, -, -, h, -⟩ | ⟨_, h, -⟩ <;> rw [h]

theorem deliveries_foldl_tell (news : News) (ls : List Listener) (r : Reply) :
    deliveries (ls.foldl (tell news) r).notices =
      deliveries r.notices ++ forEach r.host.session.subscribers
        (if .session ∈ ls ∧ r.host.poisoned = false then (hear r.host.session news).events else []) := by
  induction ls generalizing r with
  | nil => simp
  | cons l ls ih =>
    rw [List.foldl_cons, ih, tell_host]
    cases l with
    | session =>
      cases hp : r.host.poisoned with
      | true => simp [tell, hp]
      | false => simp [tell, Reply.forward_eq, hp, hear_subscribers, hear_hear_events]
    | other id => cases news <;> simp [tell, deliveries, Notice.delivery]

theorem spread_deliveries (h : Host) {change : Buffer × News}
    (hl : change.1.audience change.2.topic = h.buffer.audience change.2.topic) :
    deliveries (h.spread change).notices =
      forEach h.session.subscribers (if h.Hears change.2.topic then (hear h.session change.2).events else []) := by
  unfold spread
  rw [deliveries_foldl_tell, hl]
  rfl

theorem direct_deliveries {α : Type} {h : Host} (held : h.held = none) (t : Turn α) (answer : α → Answer) :
    deliveries (h.direct t answer).notices = forEach t.session.subscribers t.events := by
  rw [direct_notices held, deliveries_deliver]

/-- Each event of a step reaches each subscriber once: in the order in which the events are raised and, for
    one event, in that of the subscriptions. -/
theorem step_deliveries {h : Host} (hi : h.Idle) (s : Step) :
    deliveries (h.step s).notices = forEach h.session.subscribers (h.raised s) := by
  cases s with
  | subscribe | startBuild => exact direct_deliveries hi.held _ _
  | openLoad =>
    rw [step_openLoad hi]
    exact (forEach_nil _).symm
  | closeLoad ticket records text =>
    simp only [step, raised]
    cases h.tickets[ticket]? with
    | some t => rw [direct_deliveries hi.held, closeLoad_subscribers]
    | none => exact (forEach_nil _).symm
  | load file text =>
    rw [← load_subscribers]
    exact direct_deliveries hi.held _ _
  | loadHere file =>
    rw [← loadAndObserve_subscribers]
    exact direct_deliveries hi.held _ _
  | observe selection =>
    rw [← hear_subscribers h.session (.selected selection)]
    exact direct_deliveries hi.held _ _
  | invalidate =>
    rw [← hear_subscribers h.session .edited]
    exact direct_deliveries hi.held _ _
  | select selection => exact h.spread_deliveries rfl
  | setText text => exact h.spread_deliveries rfl
  | _ => exact (forEach_nil _).symm

/-! ## Counts -/

def closes (h : Host) : Step → Option Ticket
  | .closeLoad ticket _ _ => h.tickets[ticket]?
  | .load .. | .loadHere _ => some h.session.openLoad.result
  | _ => none

/-- An event carries the count that the session has when the step is done. -/
theorem sequence_of_raised {h : Host} {s : Step} {e : Event} (he : e ∈ h.raised s) :
    e.sequence = (h.step s).host.session.sequence := by
  have hs := h.step_sequence s
  cases s with
  | startBuild =>
    obtain rfl := List.mem_singleton.mp he
    rfl
  | openLoad => cases he
  | load file text =>
    have hm := (h.session.load_moves file (text.getD h.buffer.text)).sequence_le.2 e he
    exact Nat.le_antisymm hm.2.1 (hs ▸ hm.1)
  | loadHere file =>
    have hm := (h.session.loadAndObserve_moves file h.buffer.text h.buffer.selection).sequence_le.2 e he
    exact Nat.le_antisymm hm.2.1 (hs ▸ hm.1)
  | _ =>
    have hm := (h.step_moves _).sequence_le.2 e he
    exact Nat.le_antisymm hm.2.1 (hs ▸ hm.1)

/-- The news of a buffer ends no load. -/
theorem not_endsLoad_of_heard {s : Session} {news : News} {e : Event} (he : e ∈ (hear s news).events) :
    e.change.endsLoad = false := by
  cases news with
  | selected selection =>
    simp only [hear, Session.observe] at he
    split at he
    · cases he
    · obtain rfl := List.mem_singleton.mp he
      rfl
  | edited =>
    simp only [hear, Session.invalidate] at he
    split at he
    · cases he
    · obtain rfl := List.mem_singleton.mp he
      rfl

/-- The event that tells how a load ended carries the count of the load's ticket. -/
theorem closes_of_raised {h : Host} {s : Step} {e : Event} (he : e ∈ h.raised s) (hl : e.change.endsLoad = true) :
    h.closes s = some ⟨e.sequence⟩ := by
  have hn : ∀ news, e ∉ (hear h.session news).events := fun news hm => by
    rw [not_endsLoad_of_heard hm] at hl
    cases hl
  have hs := sequence_of_raised he
  -- A load that is done at once has the count of the host after the step.
  cases s with
  | startBuild =>
    obtain rfl := List.mem_singleton.mp he
    cases hl
  | closeLoad ticket records text =>
    show h.tickets[ticket]? = _
    cases ht : h.tickets[ticket]? with
    | none => simp only [raised, ht, List.not_mem_nil] at he
    | some t =>
      rw [raised_closeLoad ht] at he
      rcases h.session.closeLoad_cases t records (text.getD h.buffer.text) with
        ⟨-, hc⟩ | ⟨ht, _, _, -, -, hc⟩ | ⟨ht, _, -, hc⟩ <;> rw [hc] at he
      · cases he
      all_goals
        obtain rfl := List.mem_singleton.mp he
        exact congrArg (fun n => some (Ticket.mk n)) ht
  | load file text => rw [hs, step_sequence]; rfl
  | loadHere file => rw [hs, step_sequence]; rfl
  | observe selection => exact absurd he (hn (.selected selection))
  | invalidate => exact absurd he (hn .edited)
  | select selection =>
    rw [raised] at he
    split at he
    · exact absurd he (hn _)
    · cases he
  | setText text =>
    rw [raised] at he
    split at he
    · exact absurd he (hn _)
    · cases he
  | _ => cases he

/-! ## Runs -/

def heard (k : Nat) (replies : List Reply) : List Event := addressed k (deliveries (replies.flatMap Reply.notices))

theorem heard_append (k : Nat) (rs rs' : List Reply) : heard k (rs ++ rs') = heard k rs ++ heard k rs' := by
  simp [heard, addressed_append]

theorem heard_run_cons {h : Host} (hi : h.Idle) (k : Nat) (s : Step) (steps : List Step) :
    heard k (h.run (s :: steps)) =
      (if k < h.session.subscribers then h.raised s else []) ++ heard k ((h.step s).host.run steps) := by
  unfold heard
  rw [run, List.flatMap_cons, deliveries_append, addressed_append, step_deliveries hi, addressed_forEach]

/-- A subscriber hears of all that is raised once it has subscribed. -/
theorem heard_run {k : Nat} {h : Host} (hi : h.Idle) (hk : k < h.session.subscribers) (steps : List Step) :
    heard k (h.run steps) = h.raisedIn steps := by
  induction steps generalizing h with
  | nil => rfl
  | cons s steps ih =>
    rw [heard_run_cons hi, if_pos hk, ih (step_idle hi s) (Nat.lt_of_lt_of_le hk (h.step_moves s).subscribers_le)]
    rfl

/-- Nobody hears of anything before the subscription. -/
theorem heard_run_of_le {k : Nat} {h : Host} (hi : h.Idle) {steps : List Step}
    (hk : (h.after steps).session.subscribers ≤ k) :
    heard k (h.run steps) = [] := by
  induction steps generalizing h with
  | nil => rfl
  | cons s steps ih =>
    have hle : h.session.subscribers ≤ k := Nat.le_trans (h.run_moves (s :: steps)).subscribers_le hk
    rw [heard_run_cons hi, if_neg (Nat.not_lt_of_le hle), ih (step_idle hi s) hk]
    rfl

theorem run_append (h : Host) (steps steps' : List Step) :
    h.run (steps ++ steps') = h.run steps ++ (h.after steps).run steps' := by
  induction steps generalizing h with
  | nil => rfl
  | cons s steps ih =>
    rw [List.cons_append, run, run, ih]
    rfl

/-- The subscriber `k` hears of what is raised once it has subscribed, each event once and in order. From the
    length of the index and the message that it finds then, it can follow both by the events alone, over any
    run. A new message differs from the one noted, and diagnostics are dropped only while some are noted. The
    counts of the events never fall and rise with a build start; each is the session's at its moment, and the
    event that ends a load carries the count of the load's ticket. -/
theorem noteAll_heard (settings : Settings) (text : String) (before since : List Step) {k : Nat}
    (subscribed : (((start settings text).after before).step .subscribe).answer = .number k) :
    let h := (start settings text).after (before ++ [.subscribe])
    let stream := heard k ((start settings text).run (before ++ .subscribe :: since))
    stream = h.raisedIn since ∧
    h.session.glimpse.noteAll stream = (h.after since).session.glimpse ∧
    AllNews h.session.glimpse stream ∧
    stream.Pairwise (fun e e' => e'.Follows e) ∧
    ∀ i < since.length, h.At since i fun h s =>
      deliveries (h.step s).notices = forEach h.session.subscribers (h.raised s) ∧
      ∀ e ∈ h.raised s, e.sequence = (h.step s).host.session.sequence ∧
        (e.change.endsLoad = true → h.closes s = some ⟨e.sequence⟩) := by
  intro h stream
  let h₀ := (start settings text).after before
  have hi₀ : h₀.Idle := after_idle (start_idle settings text) before
  have hk : h₀.session.subscribers = k := by cases subscribed; rfl
  have hh : h = (h₀.step .subscribe).host := by simp only [h, h₀, after_append, after_cons, after_nil]
  have hi : h.Idle := hh ▸ step_idle hi₀ .subscribe
  have hlt : k < h.session.subscribers := by
    rw [hh, ← hk]
    exact Nat.lt_succ_self _
  have heq : stream = h.raisedIn since := by
    simp only [stream]
    rw [run_append, heard_append, heard_run_of_le (start_idle settings text) (Nat.le_of_eq hk), heard_run_cons hi₀,
      ← heard_run hi hlt, hh]
    simp [raised, h₀]
  have hm := h.run_moves since
  rw [heq]
  refine ⟨rfl, hm.noteAll_eq, hm.allNews (quiet_after _ _ _), hm.pairwise_follows, fun i hlt => ?_⟩
  exact ⟨_, List.getElem?_eq_getElem hlt, step_deliveries (after_idle hi _) _, fun e he =>
    ⟨sequence_of_raised he, fun hl => closes_of_raised he hl⟩⟩

def watched : List Step :=
  [.openLoad, .closeLoad 0 (.ok [⟨"m", ⟨1, 1⟩, ⟨1, 2⟩, "x"⟩]) none, .select (.caret 1), .setText (some "c"),
    .openLoad, .closeLoad 1 (.error (.io .isDirectory)) none, .startBuild]

/-- The second subscriber hears of each change once, though the session listens twice, and notes the message
    after the caret has moved. -/
theorem noteAll_second_subscriber :
    (((start {} "ab").after [.attach, .subscribe, .attach]).step .subscribe).answer = .number 1 ∧
      heard 1 ((start {} "ab").run ([.attach, .subscribe, .attach] ++ .subscribe :: watched)) =
        [⟨.replaced 1, 1⟩, ⟨.messageChanged (some "x"), 1⟩, ⟨.invalidated, 1⟩,
          ⟨.loadFailed "I/O error: Is a directory (os error 21)", 2⟩, ⟨.cleared, 3⟩] ∧
      Glimpse.noteAll ⟨0, none⟩ [⟨.replaced 1, 1⟩, ⟨.messageChanged (some "x"), 1⟩] = ⟨1, some "x"⟩ ∧
      ((start {} "ab").after ([.attach, .subscribe, .attach, .subscribe] ++ watched.take 5)).closes
        (.closeLoad 1 (.error (.io .isDirectory)) none) = some ⟨2⟩ := by
  have subscribed : (((start {} "ab").after [.attach, .subscribe, .attach]).step .subscribe).answer = .number 1 := rfl
  obtain ⟨all, -, -, -, each⟩ := noteAll_heard {} "ab" [.attach, .subscribe, .attach] watched subscribed
  obtain ⟨some, noted, -⟩ := noteAll_heard {} "ab" [.attach, .subscribe, .attach] (watched.take 3) subscribed
  refine ⟨subscribed, all.trans rfl, ?_, ?_⟩
  · rw [some] at noted
    exact noted
  · obtain ⟨s, hs, -, hc⟩ := each 5 (by decide)
    cases hs
    exact (hc ⟨.loadFailed "I/O error: Is a directory (os error 21)", 2⟩ (List.mem_singleton.mpr rfl)).2 rfl

end Host

end CursorDiagnostics
