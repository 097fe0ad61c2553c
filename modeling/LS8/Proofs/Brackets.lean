/-
LS8/Proofs/Brackets.lean

Matching brackets.  A closing bracket belongs to an opening one before it
(`Pairs`) if what stands between them is balanced; it may also belong to none
(`Unpaired`), since nothing here says that a list of brackets is balanced.

All of it is read off the height, the number of brackets that are opened and
not closed.  A pair is closed at the height at which it was opened
(`Pairs.height_eq`), and an unpaired bracket at the lowest height so far
(`Unpaired.height_le`).  So the lowest height counts the unpaired brackets
(`Unpaired.height_eq`).
-/
import Mathlib.Data.Nat.Count
import Mathlib.Data.Nat.Find

namespace LS8

/-- What a thing is to the brackets around it. -/
inductive Bracket where
  | opening
  | closing
  | neither
  deriving DecidableEq, Repr

variable {l : List Bracket} {b : Bracket} {i j k n : Nat}

/-! ### Pairs -/

/-- Every bracket is closed, and none before it is opened. -/
def Balanced (l : List Bracket) : Prop :=
  l.count .closing = l.count .opening ∧
    ∀ n ≤ l.length, (l.take n).count .closing ≤ (l.take n).count .opening

instance : Decidable (Balanced l) := inferInstanceAs (Decidable (_ ∧ _))

/-- The bracket that is closed at `j` is the one that is opened at `i`. -/
structure Pairs (l : List Bracket) (i j : Nat) : Prop where
  lt : i < j
  opening : l[i]? = some .opening
  closing : l[j]? = some .closing
  balanced : Balanced ((l.take j).drop (i + 1))

instance : Decidable (Pairs l i j) :=
  decidable_of_iff (i < j ∧ l[i]? = some .opening ∧ l[j]? = some .closing ∧
      Balanced ((l.take j).drop (i + 1)))
    ⟨fun ⟨hlt, hi, hj, hbalanced⟩ => ⟨hlt, hi, hj, hbalanced⟩,
      fun ⟨hlt, hi, hj, hbalanced⟩ => ⟨hlt, hi, hj, hbalanced⟩⟩

/-- The bracket that is closed at `j` was never opened. -/
def Unpaired (l : List Bracket) (j : Nat) : Prop := l[j]? = some .closing ∧ ∀ i < j, ¬Pairs l i j

instance : DecidablePred (Unpaired l) := fun _ => inferInstanceAs (Decidable (_ ∧ _))

/-! ### Heights -/

/-- How many more brackets are opened than closed. -/
def height (l : List Bracket) : Int := l.count .opening - l.count .closing

@[simp] theorem height_nil : height [] = 0 := rfl

@[simp] theorem height_append (l l' : List Bracket) : height (l ++ l') = height l + height l' := by
  simp only [height, List.count_append]
  omega

theorem height_cons (b : Bracket) (l : List Bracket) : height (b :: l) = height [b] + height l :=
  height_append [b] l

@[simp] theorem height_opening : height [.opening] = 1 := rfl

@[simp] theorem height_closing : height [.closing] = -1 := rfl

@[simp] theorem height_neither : height [.neither] = 0 := rfl

theorem height_take_succ (h : l[n]? = some b) :
    height (l.take (n + 1)) = height (l.take n) + height [b] := by
  rw [List.take_add_one, h, Option.toList_some, height_append]

theorem height_between (hij : i ≤ j) :
    height ((l.take j).drop i) = height (l.take j) - height (l.take i) := by
  have hcut := congrArg height (List.take_append_drop i (l.take j))
  rw [height_append, List.take_take, Nat.min_eq_left hij] at hcut
  omega

/-- What stands between two places is balanced if it ends at the height at which it starts, and
never comes below it. -/
theorem balanced_between_iff (hij : i ≤ j) (hj : j ≤ l.length) :
    Balanced ((l.take j).drop i) ↔
      height (l.take j) = height (l.take i) ∧
        ∀ n, i ≤ n → n ≤ j → height (l.take i) ≤ height (l.take n) := by
  have htotal := height_between (l := l) hij
  have hpart (n : Nat) (hn : n ≤ j - i) :
      height (((l.take j).drop i).take n) = height (l.take (i + n)) - height (l.take i) := by
    rw [← height_between (Nat.le_add_right i n), List.take_drop, List.take_take,
      Nat.min_eq_left (by omega)]
  have hlength : ((l.take j).drop i).length = j - i := by
    rw [List.length_drop, List.length_take, Nat.min_eq_left hj]
  rw [Balanced, hlength]
  refine and_congr ?_ ?_
  · rw [height] at htotal
    omega
  · constructor
    · intro h n hin hnj
      have hn := h (n - i) (by omega)
      have hheight := hpart (n - i) (by omega)
      rw [height, Nat.add_sub_cancel' hin] at hheight
      omega
    · intro h n hn
      have hheight := hpart n hn
      have hle := h (i + n) (by omega) (by omega)
      rw [height] at hheight
      omega

/-! ### Heights of pairs -/

theorem length_of_getElem? (h : l[j]? = some b) : j < l.length := (List.getElem?_eq_some_iff.mp h).1

/-- A pair is closed at the height at which it was opened. -/
theorem Pairs.height_eq (h : Pairs l i j) : height (l.take j) = height (l.take (i + 1)) :=
  ((balanced_between_iff h.lt (length_of_getElem? h.closing).le).mp h.balanced).1

/-- Inside a pair the height is not lower. -/
theorem Pairs.le_height (h : Pairs l i j) (hin : i + 1 ≤ n) (hnj : n ≤ j) :
    height (l.take (i + 1)) ≤ height (l.take n) :=
  ((balanced_between_iff h.lt (length_of_getElem? h.closing).le).mp h.balanced).2 n hin hnj

theorem Pairs.le (h : Pairs l i j) (h' : Pairs l k j) : k ≤ i := by
  by_contra hlater
  -- the height is not lower before the second is opened than after the first is
  have hlow := h.le_height (not_le.mp hlater) h'.lt.le
  have hopened := height_take_succ h'.opening
  have hend := h.height_eq
  have hend' := h'.height_eq
  rw [height_opening] at hopened
  omega

/-- Only one opening bracket belongs to a closing one. -/
theorem Pairs.unique (h : Pairs l i j) (h' : Pairs l k j) : i = k :=
  Nat.le_antisymm (h'.le h) (h.le h')

/-- A bracket that is closed above an earlier height was opened since. -/
theorem exists_pairs (hj : l[j]? = some .closing) (hnj : n ≤ j)
    (hlow : height (l.take n) < height (l.take j)) : ∃ i, Pairs l i j := by
  -- the last time that the height was lower
  let i := Nat.findGreatest (fun n => height (l.take n) < height (l.take j)) j
  have hi : height (l.take i) < height (l.take j) :=
    Nat.findGreatest_spec (P := fun n => height (l.take n) < height (l.take j)) hnj hlow
  have hlast (n : Nat) (hin : i < n) (hnj : n ≤ j) : height (l.take j) ≤ height (l.take n) :=
    not_lt.mp (Nat.findGreatest_is_greatest hin hnj)
  have hij : i < j := by
    refine lt_of_le_of_ne (Nat.findGreatest_le j) ?_
    intro heq
    rw [heq] at hi
    exact lt_irrefl _ hi
  have hlength := length_of_getElem? hj
  obtain ⟨b, hb⟩ : ∃ b, l[i]? = some b := ⟨l[i], List.getElem?_eq_getElem (hij.trans hlength)⟩
  have hstep := height_take_succ hb
  have hnext := hlast (i + 1) (Nat.lt_succ_self i) hij
  rcases b with - | - | -
  · -- opened: the height is the same from here on
    rw [height_opening] at hstep
    have heq : height (l.take j) = height (l.take (i + 1)) := by omega
    refine ⟨i, hij, hb, hj, (balanced_between_iff hij hlength.le).mpr ⟨heq, ?_⟩⟩
    intro n hin hnj
    rw [← heq]
    exact hlast n hin hnj
  · rw [height_closing] at hstep
    omega
  · rw [height_neither] at hstep
    omega

/-- An unpaired bracket is closed at the lowest height so far. -/
theorem Unpaired.height_le (h : Unpaired l j) (hnj : n ≤ j) :
    height (l.take j) ≤ height (l.take n) := by
  by_contra hlow
  obtain ⟨i, hpairs⟩ := exists_pairs h.1 hnj (not_le.mp hlow)
  exact h.2 i hpairs.lt hpairs

/-- A bracket that is not unpaired brings the height back to where it was before its pair. -/
theorem exists_height_eq (hb : l[n]? = some .closing) (h : ¬Unpaired l n) :
    ∃ i < n, height (l.take (n + 1)) = height (l.take i) := by
  obtain ⟨i, hin, hpairs⟩ : ∃ i < n, Pairs l i n := by
    by_contra hnone
    refine h ⟨hb, ?_⟩
    intro i hin hpairs
    exact hnone ⟨i, hin, hpairs⟩
  have hopened := height_take_succ hpairs.opening
  have hclosed := height_take_succ hb
  have hpair := hpairs.height_eq
  rw [height_opening] at hopened
  rw [height_closing] at hclosed
  exact ⟨i, hin, by omega⟩

/-- The lowest height counts the unpaired brackets. -/
theorem lowest_height (hn : n ≤ l.length) :
    (∀ k ≤ n, -(Nat.count (Unpaired l) n : Int) ≤ height (l.take k)) ∧
      ∃ k ≤ n, height (l.take k) = -Nat.count (Unpaired l) n := by
  induction n with
  | zero =>
    refine ⟨?_, 0, le_rfl, ?_⟩
    · intro k hk
      obtain rfl := Nat.le_zero.mp hk
      simp
    · simp
  | succ n ih =>
    obtain ⟨hall, k, hk, hlow⟩ := ih (Nat.le_of_succ_le hn)
    have hb : l[n]? = some l[n] := List.getElem?_eq_getElem hn
    have hstep := height_take_succ hb
    by_cases hunpaired : Unpaired l n
    · -- one lower than ever
      have hat := hunpaired.height_le hk
      have hbefore := hall n le_rfl
      rw [Option.some.inj (hb.symm.trans hunpaired.1), height_closing] at hstep
      rw [Nat.count_succ_eq_succ_count hunpaired]
      refine ⟨?_, n + 1, le_rfl, by omega⟩
      intro k' hk'
      rcases Nat.lt_or_eq_of_le hk' with hk' | rfl
      · have hle := hall k' (Nat.le_of_lt_succ hk')
        omega
      · omega
    · -- not lower than some time before
      rw [Nat.count_succ_eq_count hunpaired]
      refine ⟨?_, k, Nat.le_succ_of_le hk, hlow⟩
      intro k' hk'
      rcases Nat.lt_or_eq_of_le hk' with hk' | rfl
      · exact hall k' (Nat.le_of_lt_succ hk')
      · have hbefore := hall n le_rfl
        rcases hbracket : l[n] with - | - | -
        · rw [hbracket, height_opening] at hstep
          omega
        · obtain ⟨i, hin, heq⟩ := exists_height_eq (hb.trans (congrArg some hbracket)) hunpaired
          rw [heq]
          exact hall i hin.le
        · rw [hbracket, height_neither] at hstep
          omega

/-- The unpaired bracket with number `k` is closed at the height `-k`. -/
theorem Unpaired.height_eq (h : Unpaired l j) :
    height (l.take j) = -Nat.count (Unpaired l) j := by
  obtain ⟨hall, k, hk, hlow⟩ := lowest_height (length_of_getElem? h.1).le
  have hge := hall j le_rfl
  have hle := h.height_le hk
  omega

end LS8
