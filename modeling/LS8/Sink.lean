/-
LS8/Sink.lean

Where program output goes.  A sink may have room for a limited number of
characters.  It takes of a text what still fits; if that is not all of it, the
rest is refused, in one of two ways: the sink reports a reason, or it says
nothing and merely makes no progress.  Program output is ASCII, so a character
is a byte.
-/
namespace LS8

/-- How a full sink turns down what it has no room for. -/
inductive Refusal where
  /-- The sink reports a reason. -/
  | reported (reason : String)
  /-- The sink takes nothing and reports no failure of its own. -/
  | silent
  deriving DecidableEq, Repr

/-- The text of a refusal. -/
def Refusal.message : Refusal → String
  | .reported reason => reason
  | .silent => "failed to write whole buffer"

/-- A receiver of program output. -/
structure Sink where
  /-- How many characters still fit; `none` is no limit. -/
  room : Option Nat
  /-- What happens to the characters that do not fit. -/
  refusal : Refusal
  deriving DecidableEq, Repr

namespace Sink

/-- The sink that takes everything. -/
def unlimited : Sink := ⟨none, .silent⟩

/-- Does all of `text` fit? -/
def fits (sink : Sink) (text : List Char) : Bool :=
  match sink.room with
  | none => true
  | some n => text.length ≤ n

/-- The part of `text` that the sink takes. -/
def taken (sink : Sink) (text : List Char) : List Char :=
  match sink.room with
  | none => text
  | some n => text.take n

/-- The sink after it was offered `text`. -/
def offer (sink : Sink) (text : List Char) : Sink :=
  { sink with room := sink.room.map (· - text.length) }

theorem taken_of_fits {sink : Sink} {text : List Char} (h : sink.fits text = true) :
    sink.taken text = text := by
  obtain ⟨_ | n, _⟩ := sink
  · rfl
  · exact List.take_of_length_le (by simpa [fits] using h)

/-- A text without characters always fits, and nothing is taken of it. -/
@[simp] theorem fits_nil (sink : Sink) : sink.fits [] = true := by
  rcases sink with ⟨_ | n, refusal⟩ <;> simp [fits]

@[simp] theorem taken_nil (sink : Sink) : sink.taken [] = [] := by
  rcases sink with ⟨_ | n, refusal⟩ <;> simp [taken]

@[simp] theorem offer_nil (sink : Sink) : sink.offer [] = sink := by
  rcases sink with ⟨_ | n, refusal⟩ <;> simp [offer]

@[simp] theorem fits_unlimited (text : List Char) : unlimited.fits text = true := rfl

@[simp] theorem taken_unlimited (text : List Char) : unlimited.taken text = text := rfl

@[simp] theorem offer_unlimited (text : List Char) : unlimited.offer text = unlimited := rfl

/-- A text fits if its first part does, and then the rest. -/
theorem fits_append (sink : Sink) (text text' : List Char) :
    sink.fits (text ++ text') = (sink.fits text && (sink.offer text).fits text') := by
  obtain ⟨_ | n, refusal⟩ := sink
  · rfl
  · simp only [fits, offer, Option.map_some, List.length_append]
    rw [← Bool.decide_and]
    apply decide_eq_decide.mpr
    omega

theorem offer_append (sink : Sink) (text text' : List Char) :
    sink.offer (text ++ text') = (sink.offer text).offer text' := by
  obtain ⟨_ | n, refusal⟩ := sink
  · rfl
  · simp only [offer, Option.map_some, List.length_append, Nat.sub_sub]

/-- A sink that refuses a text has limited room, and takes as much of the text as there is room. -/
theorem room_of_not_fits {sink : Sink} {text : List Char} (h : sink.fits text = false) :
    sink.room = some (sink.taken text).length ∧ (sink.taken text).length < text.length := by
  obtain ⟨_ | n, refusal⟩ := sink
  · exact absurd h (by simp [fits])
  · have hlt : n < text.length := by simpa [fits] using h
    have hlen : (text.take n).length = n := List.length_take_of_le (Nat.le_of_lt hlt)
    refine ⟨?_, ?_⟩
    · show some n = some (text.take n).length
      rw [hlen]
    · show (text.take n).length < text.length
      rw [hlen]
      exact hlt

/-- A sink that has refused a text has no room left. -/
theorem room_offer {sink : Sink} {text : List Char} (h : sink.fits text = false) :
    (sink.offer text).room = some 0 := by
  obtain ⟨_ | n, refusal⟩ := sink
  · cases h
  · have hlt : n < text.length := by simpa [fits] using h
    show some (n - text.length) = some 0
    rw [Nat.sub_eq_zero_of_le (Nat.le_of_lt hlt)]

/-- What a sink takes of a text is a first part of it. -/
theorem taken_isPrefix (sink : Sink) (text : List Char) : sink.taken text <+: text := by
  obtain ⟨_ | n, refusal⟩ := sink
  · exact List.prefix_rfl
  · exact List.take_prefix n text

end Sink

end LS8
