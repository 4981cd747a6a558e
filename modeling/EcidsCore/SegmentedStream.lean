import Mathlib.Data.List.Basic
import Mathlib.Data.Nat.Notation

set_option autoImplicit false

/-! A stream that a transport hands over in segments. A read returns at most what it
asks for and at most what is left of the first segment; with every way of cutting the
stream this gives every way in which reads can come up short. -/
namespace SegmentedStream

variable {α : Type*}

def read (n : ℕ) : List (List α) → List α × List (List α)
  | [] => ([], [])
  | c :: cs => if c.length ≤ n then (c, cs) else (c.take n, c.drop n :: cs)

def readInto (buffer : List α) (cs : List (List α)) : List α × List (List α) :=
  let (got, rest) := read buffer.length cs
  (got ++ buffer.drop got.length, rest)

/-- Reads until `n` items have come; `none` when one of the reads returns nothing. -/
def fill : ℕ → List (List α) → Option (List α × List (List α))
  | 0, cs => some ([], cs)
  | _ + 1, [] => none
  | n + 1, c :: cs =>
    if c = [] then none
    else if c.length ≤ n + 1 then
      (fill (n + 1 - c.length) cs).map fun got => (c ++ got.1, got.2)
    else some (c.take (n + 1), c.drop (n + 1) :: cs)

def Splits (cs : List (List α)) (s : List α) : Prop := cs.flatten = s ∧ [] ∉ cs

/-- A read of `n` items has come whole, up to the end of the stream. -/
def Whole (n : ℕ) (cs : List (List α)) : Prop := (read n cs).1.length = min n cs.flatten.length

instance (n : ℕ) (cs : List (List α)) : Decidable (Whole n cs) := inferInstanceAs (Decidable (_ = _))

theorem read_flatten (n : ℕ) (cs : List (List α)) :
    (read n cs).1 ++ (read n cs).2.flatten = cs.flatten := by
  cases cs with
  | nil => rfl
  | cons c cs =>
    rw [read]
    split
    · rfl
    · rw [List.flatten_cons, List.flatten_cons, ← List.append_assoc, List.take_append_drop]

theorem nil_notMem_read {n : ℕ} {cs : List (List α)} (h : [] ∉ cs) : [] ∉ (read n cs).2 := by
  cases cs with
  | nil => exact h
  | cons c cs =>
    have hcs : [] ∉ cs := fun hm => h (List.mem_cons_of_mem c hm)
    rw [read]
    split
    · exact hcs
    · rename_i hlt
      rw [List.mem_cons, not_or]
      refine ⟨?_, hcs⟩
      intro hd
      exact hlt (List.drop_eq_nil_iff.1 hd.symm)

theorem Splits.read {n : ℕ} {cs : List (List α)} {s : List α} (h : Splits cs s)
    (hw : Whole n cs) :
    (SegmentedStream.read n cs).1 = s.take n ∧ Splits (SegmentedStream.read n cs).2 (s.drop n) := by
  obtain ⟨rfl, hne⟩ := h
  have happ := read_flatten n cs
  have htake : (SegmentedStream.read n cs).1 = cs.flatten.take n := by
    rw [List.take_eq_take_min, ← hw]
    exact (List.take_left' rfl).symm.trans (congrArg (List.take _) happ)
  refine ⟨htake, ?_, nil_notMem_read hne⟩
  have hcut := happ.trans (List.take_append_drop n cs.flatten).symm
  rw [htake] at hcut
  exact List.append_cancel_left hcut

theorem readInto_whole {buffer : List α} {cs : List (List α)} {s : List α} (h : Splits cs s)
    (hw : Whole buffer.length cs) (hlen : buffer.length ≤ s.length) :
    (readInto buffer cs).1 = s.take buffer.length := by
  change (SegmentedStream.read buffer.length cs).1 ++
    buffer.drop (SegmentedStream.read buffer.length cs).1.length = _
  rw [(h.read hw).1, List.length_take_of_le hlen, List.drop_length, List.append_nil]

/-- However a stream is cut, filling takes the items it is asked for off its front. -/
theorem fill_splits {n : ℕ} {cs : List (List α)} {s : List α} (h : Splits cs s) :
    if n ≤ s.length then
      ∃ rest, fill n cs = some (s.take n, rest) ∧ Splits rest (s.drop n)
    else fill n cs = none := by
  induction cs generalizing n s with
  | nil =>
    obtain ⟨rfl, hne⟩ := h
    cases n with
    | zero => exact ⟨[], rfl, rfl, hne⟩
    | succ n => rfl
  | cons c cs ih =>
    obtain ⟨rfl, hne⟩ := h
    have hc : c ≠ [] := fun hc => hne (hc ▸ List.mem_cons_self)
    have hcs : [] ∉ cs := fun hm => hne (List.mem_cons_of_mem c hm)
    cases n with
    | zero =>
      rw [if_pos (Nat.zero_le _)]
      exact ⟨c :: cs, rfl, rfl, hne⟩
    | succ n =>
      rw [fill, if_neg hc, List.flatten_cons, List.length_append]
      by_cases hle : c.length ≤ n + 1
      · have hrest := ih (n := n + 1 - c.length) ⟨rfl, hcs⟩
        rw [if_pos hle]
        by_cases hn : n + 1 ≤ c.length + cs.flatten.length
        · rw [if_pos (by omega)] at hrest
          obtain ⟨rest, hfill, hsplit⟩ := hrest
          rw [if_pos hn, hfill, List.take_append, List.drop_append, List.take_of_length_le hle,
            List.drop_eq_nil_of_le hle]
          exact ⟨rest, rfl, hsplit⟩
        · rw [if_neg (by omega)] at hrest
          rw [if_neg hn, hrest]
          rfl
      · have hd : c.drop (n + 1) ≠ [] := fun hd => hle (List.drop_eq_nil_iff.1 hd)
        rw [if_neg hle, if_pos (by omega), List.take_append_of_le_length (by omega),
          List.drop_append_of_le_length (by omega)]
        refine ⟨_, rfl, rfl, ?_⟩
        rw [List.mem_cons, not_or]
        exact ⟨hd.symm, hcs⟩

end SegmentedStream
