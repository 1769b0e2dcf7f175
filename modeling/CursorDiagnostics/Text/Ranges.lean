/-
  CursorDiagnostics.Text.Ranges — a class of characters given by the ranges of its code points.

  The ranges are closed and stand in increasing order, so a search may stop at the first range that
  begins past the code point. `covers_iff`: on such a list the search finds exactly the code points
  that lie in some range.
-/

namespace CursorDiagnostics.Text

abbrev Ranges := List (Nat × Nat)

namespace Ranges

def covers : Ranges → Nat → Bool
  | [], _ => false
  | (lo, hi) :: rest, n => if n < lo then false else if n ≤ hi then true else covers rest n

/-- Each range ends before the next begins. -/
def Increasing (rs : Ranges) : Prop := rs.Pairwise fun a b => a.2 < b.1 ∧ a.1 ≤ b.1

theorem covers_iff {rs : Ranges} (h : Increasing rs) (n : Nat) :
    covers rs n = true ↔ ∃ r ∈ rs, r.1 ≤ n ∧ n ≤ r.2 := by
  induction rs with
  | nil => simp [covers]
  | cons r rest ih =>
    obtain ⟨hr, hrest⟩ := List.pairwise_cons.mp h
    simp only [covers, List.mem_cons, exists_eq_or_imp]
    split
    · rename_i hlt
      constructor
      · intro hf; cases hf
      · rintro (⟨h1, _⟩ | ⟨s, hs, h1, _⟩)
        · omega
        · have := (hr s hs).2; omega
    · split
      · rename_i h1 h2; exact ⟨fun _ => Or.inl ⟨by omega, h2⟩, fun _ => rfl⟩
      · rename_i h1 h2
        rw [ih hrest]
        exact ⟨Or.inr, fun h => h.resolve_left (fun h => h2 h.2)⟩

end Ranges

end CursorDiagnostics.Text
