/-
  CursorDiagnostics.Proofs.CommandLine.Output — the bytes that a writer takes.

  A text is written as its UTF-8, and that of two texts after one another is that of both
  (`bytes_append`). A writer with room for everything takes the lines of a report as the report's text
  (`putLines_of_room`), and without a fault. One with room for so many bytes takes these and no more
  (`putLines_of_limit`), wherever in a line the last of them stands.
-/

import CursorDiagnostics.CommandLine.Report

namespace CursorDiagnostics

/-! ## Bytes -/

theorem byteArray_toList_loop (b : ByteArray) (i : Nat) (r : List UInt8) :
    ByteArray.toList.loop b i r = r.reverse ++ b.data.toList.drop i := by
  induction i, r using ByteArray.toList.loop.induct b with
  | case1 i r hi ih =>
    have hd : b.data.toList.drop i = b.get! i :: b.data.toList.drop (i + 1) := by
      rw [List.drop_eq_getElem_cons (show i < b.data.toList.length from hi)]
      exact congrArg (· :: _) (getElem!_pos b.data i hi).symm
    rw [ByteArray.toList.loop, if_pos hi, ih, hd, List.reverse_cons, List.append_assoc]
    rfl
  | case2 i r hi =>
    rw [ByteArray.toList.loop, if_neg hi, List.drop_eq_nil_of_le (Nat.le_of_not_lt hi), List.append_nil]

theorem byteArray_toList (b : ByteArray) : b.toList = b.data.toList := by
  rw [ByteArray.toList, byteArray_toList_loop]
  rfl

def bytes (s : String) : List UInt8 := s.toUTF8.toList

theorem bytes_append (s t : String) : bytes (s ++ t) = bytes s ++ bytes t := by
  simp [bytes, String.toUTF8, byteArray_toList]

theorem bytes_empty : bytes "" = [] := by
  simp [bytes, String.toUTF8, byteArray_toList]

theorem bytes_text_cons (line : String) (lines : List String) :
    bytes (Console.text (line :: lines)) = bytes (line ++ "\n") ++ bytes (Console.text lines) := by
  rw [Console.text, List.map_cons, String.join_cons, bytes_append]
  rfl

/-! ## Writers -/

namespace CommandLine

theorem putLines_of_room {s : Sink} (hs : s.room = none) (lines : List String) :
    s.putLines lines = ({ s with taken := s.taken ++ bytes (Console.text lines) }, none) := by
  induction lines generalizing s with
  | nil => simp [Sink.putLines, Console.text, bytes_empty]
  | cons line lines ih =>
    have hp : s.put (line ++ "\n").toUTF8.toList = ({ s with taken := s.taken ++ bytes (line ++ "\n") }, none) := by
      simp only [Sink.put, hs]
      rfl
    rw [Sink.putLines, hp, bytes_text_cons]
    show Sink.putLines { s with taken := s.taken ++ bytes (line ++ "\n") } lines = _
    rw [ih (show Sink.room { s with taken := s.taken ++ bytes (line ++ "\n") } = none from hs)]
    simp [← Array.toList_inj]

/-- A writer with room for `n` bytes more takes the first `n` of the report's, and fails if there are others. -/
theorem putLines_of_limit {s : Sink} {n : Nat} (hs : s.room = some n) (lines : List String) :
    (s.putLines lines).1.taken.toList = s.taken.toList ++ (bytes (Console.text lines)).take n ∧
    (s.putLines lines).2 = if n < (bytes (Console.text lines)).length then some Sink.full else none := by
  induction lines generalizing s n with
  | nil => simp [Sink.putLines, Console.text, bytes_empty]
  | cons line lines ih =>
    rw [bytes_text_cons, List.take_append, List.length_append]
    have hput : s.put (line ++ "\n").toUTF8.toList = (⟨s.taken ++ (bytes (line ++ "\n")).take n,
        some (n - (bytes (line ++ "\n")).length)⟩, if (bytes (line ++ "\n")).length ≤ n then none else some Sink.full) := by
      simp only [Sink.put, hs]
      rfl
    rw [Sink.putLines, hput]
    generalize bytes (line ++ "\n") = b
    by_cases hroom : b.length ≤ n
    · -- the line is taken whole, and the room left is for the lines after it
      rw [if_pos hroom]
      obtain ⟨htaken, hfault⟩ := ih (s := ⟨s.taken ++ b.take n, some (n - b.length)⟩) rfl
      have hlimit : n - b.length < (bytes (Console.text lines)).length ↔
          n < b.length + (bytes (Console.text lines)).length := by omega
      simp [htaken, hfault, hlimit]
    · have hrest : n - b.length = 0 := by omega
      have hlimit : n < b.length + (bytes (Console.text lines)).length := by omega
      rw [if_neg hroom, hrest, if_pos hlimit]
      simp

end CommandLine

end CursorDiagnostics
