/-
LS8/Proofs/Grammar.lean

The text of a program, as a grammar of characters.

The text is cut at its newlines, and nowhere else.  It is a program if every
segment is of the form

    ws* (d ws*)? ('#' any*)?

where `ws` is white space of any kind and `d` is one to eight binary digits,
and if there are no more `d` than cells.  `load_grammar` says that exactly these
texts are loaded, and that the numbers `d` are what is in memory then.

The loader knows no segments: it takes lines, which may have lost a carriage
return, cuts them at the first `#` and trims what is left.  None of this makes
a difference to what a segment spells (`spelled_lines`, `content_of_form`).
-/
import LS8.Proofs.Digits
import LS8.Proofs.Loading
import Mathlib.Data.List.Forall2
import Mathlib.Data.List.ReduceOption
import Mathlib.Data.List.TakeWhile

namespace LS8.Program

open Text (isBlank trim dropTrailing segments lines dropReturn)

/-! ### The grammar -/

/-- White space, or nothing. -/
def IsSpace (text : List Char) : Prop := ∀ c ∈ text, isBlank c = true

/-- One to eight binary digits. -/
def IsDigits (text : List Char) : Prop :=
  1 ≤ text.length ∧ text.length ≤ 8 ∧ ∀ c ∈ text, c = '0' ∨ c = '1'

/-- A comment, or nothing. -/
inductive IsComment : List Char → Prop
  | nothing : IsComment []
  | hash (text : List Char) : IsComment ('#' :: text)

/-- The form of a segment, with the digits in it, if it has any. -/
inductive HasForm : List Char → Option (List Char) → Prop
  | blank {space comment : List Char} (hspace : IsSpace space) (hcomment : IsComment comment) :
      HasForm (space ++ comment) none
  | byte {indent digits gap comment : List Char} (hindent : IsSpace indent)
      (hdigits : IsDigits digits) (hgap : IsSpace gap) (hcomment : IsComment comment) :
      HasForm (indent ++ digits ++ gap ++ comment) (some digits)

instance : DecidablePred IsSpace := fun text => List.decidableBAll (isBlank · = true) text

instance : DecidablePred IsDigits := fun text =>
  haveI := List.decidableBAll (fun c => c = '0' ∨ c = '1') text
  inferInstanceAs (Decidable (_ ∧ _))

section Segments

variable {text before core after comment line digits : List Char} {texts : List (List Char)}
  {size : Nat}

theorem IsSpace.append (h : IsSpace text) (h' : IsSpace core) : IsSpace (text ++ core) := by
  intro c hc
  rcases List.mem_append.mp hc with hc | hc
  · exact h c hc
  · exact h' c hc

/-- No character of `text` is taken for white space or for the start of a comment. -/
def IsPlain (text : List Char) : Prop := ∀ c ∈ text, isBlank c = false ∧ c ≠ '#'

theorem isPlain_nil : IsPlain [] := by
  intro c hc
  cases hc

theorem IsDigits.isPlain (h : IsDigits text) : IsPlain text := by
  intro c hc
  rcases h.2.2 c hc with rfl | rfl <;> decide

/-! ### Cutting and trimming -/

theorem IsSpace.ne_hash (h : IsSpace text) : ∀ c ∈ text, c ≠ '#' := by
  rintro c hc rfl
  have hblank : isBlank '#' = true := h '#' hc
  exact absurd hblank (by decide)

/-- What is behind the part of a line before its first `#` is a comment. -/
theorem isComment_dropWhile (line : List Char) : IsComment (line.dropWhile (· != '#')) := by
  induction line with
  | nil => exact .nothing
  | cons c line ih =>
    by_cases hc : c = '#'
    · subst hc
      exact .hash line
    · rw [List.dropWhile_cons_of_pos (by simpa using hc)]
      exact ih

theorem IsComment.takeWhile (h : IsComment comment) : comment.takeWhile (· != '#') = [] := by
  cases h with
  | nothing => rfl
  | hash text => exact List.takeWhile_cons_of_neg (by decide)

theorem IsPlain.dropWhile (h : IsPlain text) : text.dropWhile isBlank = text := by
  cases text with
  | nil => rfl
  | cons c text =>
    have hc : isBlank c = false := (h c List.mem_cons_self).1
    exact List.dropWhile_cons_of_neg (by simp [hc])

theorem IsSpace.dropWhile (h : IsSpace text) : text.dropWhile isBlank = [] :=
  List.dropWhile_eq_nil_iff.mpr h

/-- Trimming takes the white space on both sides away. -/
theorem trim_of_space (hbefore : IsSpace before) (hcore : IsPlain core) (hafter : IsSpace after) :
    trim (before ++ core ++ after) = core := by
  have hreverse : IsPlain core.reverse := fun c hc => hcore c (List.mem_reverse.mp hc)
  have hleading : (before ++ core ++ after).dropWhile isBlank =
      (core ++ after).dropWhile isBlank := by
    rw [List.append_assoc, List.dropWhile_append_of_pos hbefore]
  rw [trim, hleading]
  cases core with
  | nil =>
    rw [List.nil_append, hafter.dropWhile]
    rfl
  | cons c core =>
    have hc : isBlank c = false := (hcore c List.mem_cons_self).1
    rw [List.cons_append, List.dropWhile_cons_of_neg (by simp [hc]), ← List.cons_append,
      dropTrailing, List.reverse_append,
      List.dropWhile_append_of_pos fun d hd => hafter d (List.mem_reverse.mp hd),
      hreverse.dropWhile, List.reverse_reverse]

/-- What is left of a line of the form is what the form is built around. -/
theorem content_of_form (hbefore : IsSpace before) (hcore : IsPlain core) (hafter : IsSpace after)
    (hcomment : IsComment comment) : content (before ++ core ++ after ++ comment) = core := by
  have hhash : ∀ c ∈ before ++ core ++ after, (c != '#') = true := by
    intro c hc
    rw [bne_iff_ne]
    rcases List.mem_append.mp hc with hc | hc
    · rcases List.mem_append.mp hc with hc | hc
      · exact hbefore.ne_hash c hc
      · exact (hcore c hc).2
    · exact hafter.ne_hash c hc
  rw [content, List.takeWhile_append_of_pos hhash, hcomment.takeWhile, List.append_nil,
    trim_of_space hbefore hcore hafter]

/-- Every line is what is left of it, with white space around and a comment behind. -/
theorem exists_form (line : List Char) :
    ∃ before after comment, IsSpace before ∧ IsSpace after ∧ IsComment comment ∧
      before ++ content line ++ after ++ comment = line := by
  have hblank (text : List Char) : IsSpace (text.takeWhile isBlank) :=
    fun c hc => List.mem_takeWhile_imp hc
  obtain ⟨code, hcode⟩ : ∃ code, code = line.takeWhile (· != '#') := ⟨_, rfl⟩
  -- first the comment is cut off, then the leading white space, then the trailing
  have hcut : code ++ line.dropWhile (· != '#') = line := by
    rw [hcode, List.takeWhile_append_dropWhile]
  have htrail (text : List Char) :
      dropTrailing text ++ (text.reverse.takeWhile isBlank).reverse = text := by
    rw [dropTrailing, ← List.reverse_append, List.takeWhile_append_dropWhile, List.reverse_reverse]
  refine ⟨code.takeWhile isBlank, ((code.dropWhile isBlank).reverse.takeWhile isBlank).reverse,
    line.dropWhile (· != '#'), hblank code, ?_, isComment_dropWhile line, ?_⟩
  · intro c hc
    exact hblank _ c (List.mem_reverse.mp hc)
  · rw [content, ← hcode, trim, List.append_assoc (code.takeWhile isBlank), htrail,
      List.takeWhile_append_dropWhile, hcut]

/-! ### The form of a segment -/

theorem hasForm_none_iff : HasForm line none ↔ content line = [] := by
  constructor
  · rintro ⟨hspace, hcomment⟩
    have hempty : IsSpace [] := nofun
    have hcontent := content_of_form hspace isPlain_nil hempty hcomment
    rwa [List.append_nil, List.append_nil] at hcontent
  · intro hcontent
    obtain ⟨before, after, comment, hbefore, hafter, hcomment, hline⟩ := exists_form line
    rw [hcontent, List.append_nil] at hline
    rw [← hline]
    exact .blank (hbefore.append hafter) hcomment

theorem hasForm_some_iff :
    HasForm line (some digits) ↔ content line = digits ∧ IsDigits digits := by
  constructor
  · intro hform
    cases hform with
    | byte hindent hdigits hgap hcomment =>
      exact ⟨content_of_form hindent hdigits.isPlain hgap hcomment, hdigits⟩
  · rintro ⟨rfl, hdigits⟩
    obtain ⟨before, after, comment, hbefore, hafter, hcomment, hline⟩ := exists_form line
    have hform := HasForm.byte hbefore hdigits hafter hcomment
    rwa [hline] at hform

/-- What is left of each of the texts, where anything is left. -/
def spelled (texts : List (List Char)) : List (List Char) :=
  (texts.map content).filter (!·.isEmpty)

@[simp] theorem spelled_append (texts texts' : List (List Char)) :
    spelled (texts ++ texts') = spelled texts ++ spelled texts' := by
  rw [spelled, List.map_append, List.filter_append]
  rfl

theorem spelled_of_blank (h : content line = []) : spelled [line] = [] := by
  simp [spelled, h]

theorem spelled_of_ne_nil (h : content line ≠ []) : spelled [line] = [content line] := by
  simp [spelled, h]

/-- The digits in the segments of a text are all that they spell. -/
theorem reduceOption_of_forms {forms : List (Option (List Char))}
    (h : List.Forall₂ HasForm texts forms) :
    forms.reduceOption = spelled texts ∧ ∀ digits ∈ spelled texts, IsDigits digits := by
  induction h with
  | nil => exact ⟨rfl, nofun⟩
  | @cons line form texts forms hform _ ih =>
    rw [← List.singleton_append (l := texts), spelled_append]
    cases form with
    | none =>
      rw [spelled_of_blank (hasForm_none_iff.mp hform), List.reduceOption_cons_of_none]
      exact ih
    | some digits =>
      obtain ⟨rfl, hdigits⟩ := hasForm_some_iff.mp hform
      have hne := List.length_pos_iff.mp hdigits.1
      rw [spelled_of_ne_nil hne, List.reduceOption_cons_of_some, ih.1]
      exact ⟨rfl, List.forall_mem_cons.mpr ⟨hdigits, ih.2⟩⟩

/-- Segments that spell nothing but digits have a form. -/
theorem exists_forms (h : ∀ digits ∈ spelled texts, IsDigits digits) :
    ∃ forms, List.Forall₂ HasForm texts forms := by
  induction texts with
  | nil => exact ⟨[], .nil⟩
  | cons line texts ih =>
    rw [← List.singleton_append, spelled_append] at h
    obtain ⟨forms, hforms⟩ := ih fun digits hd => h digits (List.mem_append_right _ hd)
    by_cases hline : content line = []
    · exact ⟨none :: forms, .cons (hasForm_none_iff.mpr hline) hforms⟩
    · rw [spelled_of_ne_nil hline] at h
      have hdigits : IsDigits (content line) := h _ (List.mem_append_left _ List.mem_cons_self)
      exact ⟨some (content line) :: forms, .cons (hasForm_some_iff.mpr ⟨rfl, hdigits⟩) hforms⟩

/-! ### Lines and segments -/

/-- White space at the end of a text is trimmed away. -/
theorem trim_concat {c : Char} (hc : isBlank c = true) (text : List Char) :
    trim (text ++ [c]) = trim text := by
  rw [trim, trim, List.dropWhile_append]
  rcases hrest : text.dropWhile isBlank with - | ⟨d, rest⟩
  · -- there is nothing but white space
    rw [List.isEmpty_nil, if_pos rfl, List.dropWhile_cons_of_pos hc]
    rfl
  · rw [List.isEmpty_cons, if_neg Bool.false_ne_true, dropTrailing, List.reverse_append]
    show ((c :: (d :: rest).reverse).dropWhile isBlank).reverse = _
    rw [List.dropWhile_cons_of_pos hc]
    rfl

/-- A carriage return at the end of a segment is white space, or part of a comment. -/
theorem content_concat_return (segment : List Char) :
    content (segment ++ ['\r']) = content segment := by
  rw [content, content]
  by_cases hhash : ∀ c ∈ segment, (c != '#') = true
  · rw [List.takeWhile_append_of_pos hhash, List.takeWhile_eq_self_iff.mpr hhash]
    exact trim_concat (by decide) segment
  · have hcut : (segment.takeWhile (· != '#')).length ≠ segment.length := by
      intro hlength
      have hall := (List.takeWhile_prefix (l := segment) (· != '#')).eq_of_length hlength
      exact hhash (List.takeWhile_eq_self_iff.mp hall)
    rw [List.takeWhile_append, if_neg hcut]

theorem content_dropReturn (segment : List Char) :
    content (dropReturn segment) = content segment := by
  rw [dropReturn]
  split
  · next hlast =>
    obtain ⟨init, rfl⟩ := List.getLast?_eq_some_iff.mp hlast
    rw [List.dropLast_concat, content_concat_return]
  · rfl

/-- The lines of a text spell what its segments do. -/
theorem spelled_lines (text : List Char) : spelled (lines text) = spelled (segments text) := by
  have hreturns (texts : List (List Char)) : spelled (texts.map dropReturn) = spelled texts := by
    simp only [spelled, List.map_map, Function.comp_def, content_dropReturn]
  rw [lines]
  rcases (segments text).eq_nil_or_concat' with hsegments | ⟨init, last, hsegments⟩
  · rw [hsegments]
    rfl
  · rw [hsegments, List.dropLast_concat, List.getLast?_concat, Option.getD_some, spelled_append,
      spelled_append, hreturns]
    cases last with
    | nil => rfl
    | cons c last => rfl

/-! ### What is loaded -/

theorem goodLines_eq_filter (texts : List (List Char)) :
    (goodLines texts).map content = (spelled texts).filter (IsDigits ·) := by
  induction texts with
  | nil => rfl
  | cons line texts ih =>
    rw [← List.singleton_append (l := texts), goodLines_append, List.map_append, ih, spelled_append,
      List.filter_append]
    by_cases hgood : IsGood line
    · have hdigits : IsDigits (content line) := hgood
      rw [goodLines_of_isGood hgood, spelled_of_ne_nil (List.length_pos_iff.mp hgood.1)]
      simp [hdigits]
    · rw [goodLines_of_not_isGood hgood]
      by_cases hblank : content line = []
      · rw [spelled_of_blank hblank]
        rfl
      · have hdigits : ¬IsDigits (content line) := hgood
        rw [spelled_of_ne_nil hblank]
        simp [hdigits]

/-- Where nothing but digits is spelled, all of it comes from good lines. -/
theorem goodLines_eq_spelled (h : ∀ digits ∈ spelled texts, IsDigits digits) :
    (goodLines texts).map content = spelled texts := by
  rw [goodLines_eq_filter, List.filter_eq_self]
  intro digits hdigits
  exact decide_eq_true (h digits hdigits)

/-- Nothing is wrong with lines that spell nothing but digits, and no more of them than there are
cells. -/
theorem flawsOf_eq_nil_iff :
    flawsOf size texts = [] ↔
      (∀ digits ∈ spelled texts, IsDigits digits) ∧ (spelled texts).length ≤ size := by
  induction texts using List.reverseRecOn with
  | nil => exact ⟨fun _ => ⟨nofun, Nat.zero_le size⟩, fun _ => rfl⟩
  | append_singleton texts line ih =>
    rw [flawsOf_append_singleton, List.append_eq_nil_iff, ih, Option.toList_eq_nil_iff,
      spelled_append, List.length_append, List.forall_mem_append]
    by_cases hblank : content line = []
    · rw [flaw?_of_isBlank hblank, spelled_of_blank hblank]
      simp
    · rw [spelled_of_ne_nil hblank, List.forall_mem_singleton, List.length_singleton]
      by_cases hgood : IsGood line
      · rw [flaw?_of_isGood hgood]
        have hdigits : IsDigits (content line) := hgood
        constructor
        · rintro ⟨⟨hall, hle⟩, hflaw⟩
          have hlength := congrArg List.length (goodLines_eq_spelled hall)
          rw [List.length_map] at hlength
          have hne : (goodLines texts).length ≠ size := fun heq => by simp [heq] at hflaw
          exact ⟨⟨hall, hdigits⟩, by omega⟩
        · rintro ⟨⟨hall, -⟩, hlt⟩
          have hlength := congrArg List.length (goodLines_eq_spelled hall)
          rw [List.length_map] at hlength
          exact ⟨⟨hall, by omega⟩, if_neg (by omega)⟩
      · rw [flaw?_of_bad hblank hgood]
        refine ⟨?_, ?_⟩
        · rintro ⟨-, hflaw⟩
          cases hflaw
        · rintro ⟨⟨-, hdigits⟩, -⟩
          exact absurd hdigits hgood

/-- The numbers that digits denote, and zeros behind them up to the end of memory. -/
def numbersOf (size : Nat) (spellings : List (List Char)) : List Nat :=
  spellings.map Numeral.ofBinary ++ List.replicate (size - spellings.length) 0

/-- The loader leaves in memory what the lines spell, and zeros behind it. -/
theorem Loading.Reads.numbers {l : Loading size} (h : l.Reads .zero texts)
    (hdigits : ∀ digits ∈ spelled texts, IsDigits digits) (hsize : (spelled texts).length ≤ size) :
    l.memory.toList.map UInt8.toNat = numbersOf size (spelled texts) := by
  have hgood := goodLines_eq_spelled hdigits
  rw [← hgood, List.length_map] at hsize
  rw [← hgood, numbersOf, List.map_map, List.length_map]
  apply List.ext_getElem?
  intro i
  have hview : l.memory.toList[i]? = l.memory.cell? i := Vector.getElem?_toList
  rw [List.getElem?_map, hview]
  by_cases hi : i < (goodLines texts).length
  · -- a byte of the program
    have hline := List.getElem?_eq_getElem hi
    obtain ⟨byte, hcell, hbyte⟩ := h.bytes i _ (Nat.lt_of_lt_of_le hi hsize) hline
    rw [hcell, List.getElem?_append_left (by rwa [List.length_map]), List.getElem?_map, hline]
    exact congrArg some hbyte
  · -- a cell behind the program, or none
    have hle := Nat.le_of_not_lt hi
    rw [h.others i hle, Memory.cell?_zero, List.getElem?_append_right (by rwa [List.length_map]),
      List.length_map, List.getElem?_replicate]
    by_cases hcell : i < size
    · rw [if_pos hcell, if_pos (by omega)]
      rfl
    · rw [if_neg hcell, if_neg (by omega)]
      rfl

/-- A text whose segments have a form is loaded as the numbers in it. -/
theorem load_of_forms {forms : List (Option (List Char))}
    (hforms : List.Forall₂ HasForm (segments text) forms)
    (hsize : forms.reduceOption.length ≤ size) :
    ∃ loaded, load (Memory.zero : Memory size) text = .ok loaded ∧
      loaded.count = forms.reduceOption.length ∧
      loaded.memory.toList.map UInt8.toNat = numbersOf size forms.reduceOption := by
  obtain ⟨hspelled, hdigits⟩ := reduceOption_of_forms hforms
  rw [hspelled] at hsize ⊢
  rw [← spelled_lines] at hsize hdigits ⊢
  have hreads := Loading.reads_takeText (Memory.zero : Memory size) text
  have hempty :
      ((Loading.start (Memory.zero : Memory size)).takeText text).flaws.isEmpty = true := by
    rw [Array.isEmpty_iff, ← Array.toList_eq_nil_iff, hreads.flaws]
    exact flawsOf_eq_nil_iff.mpr ⟨hdigits, hsize⟩
  refine ⟨_, if_pos hempty, ?_, hreads.numbers hdigits hsize⟩
  rw [← goodLines_eq_spelled hdigits, List.length_map]
  exact hreads.next

/-- The segments of a text that is loaded have a form, and do not spell too much. -/
theorem exists_forms_of_load {loaded : Loaded size}
    (h : load (Memory.zero : Memory size) text = .ok loaded) :
    ∃ forms, List.Forall₂ HasForm (segments text) forms ∧ forms.reduceOption.length ≤ size := by
  have hreads := Loading.reads_takeText (Memory.zero : Memory size) text
  rw [load, Loading.finish] at h
  split at h
  · next hempty =>
    rw [Array.isEmpty_iff, ← Array.toList_eq_nil_iff, hreads.flaws, flawsOf_eq_nil_iff,
      spelled_lines] at hempty
    obtain ⟨forms, hforms⟩ := exists_forms hempty.1
    refine ⟨forms, hforms, ?_⟩
    rw [(reduceOption_of_forms hforms).1]
    exact hempty.2
  · cases h

end Segments

/-! ### Ways to write a program -/

/-- A byte in up to eight digits, with zeros in front. -/
structure Spelling where
  byte : Byte
  width : Nat
  width_le : width ≤ 8

/-- The digits of a spelling. -/
def Spelling.digits (s : Spelling) : List Char := Numeral.binary s.width s.byte.toNat

/-- A line as somebody may write it. -/
structure Row where
  indent : List Char
  spelling? : Option Spelling
  gap : List Char
  /-- The text behind the `#`, if there is one. -/
  comment? : Option (List Char)
  /-- Does a carriage return end the line? -/
  returned : Bool
  indent_space : IsSpace indent
  gap_space : IsSpace gap
  /-- It is one line. -/
  unbroken : '\n' ∉ indent ++ gap ++ comment?.getD []

namespace Row

/-- The comment of a row, with the carriage return if there is one. -/
def ending (row : Row) : List Char :=
  (row.comment?.map ('#' :: ·)).getD [] ++ if row.returned then ['\r'] else []

/-- The text of a row. -/
def text (row : Row) : List Char :=
  row.indent ++ (row.spelling?.map Spelling.digits).getD [] ++ row.gap ++ row.ending

end Row

/-- Rows one after the other, with newlines between them.  An empty row at the end leaves a newline
at the end. -/
def written (rows : List Row) : List Char := ['\n'].intercalate (rows.map Row.text)

/-- The bytes in rows. -/
def bytesOf (rows : List Row) : List Byte :=
  rows.filterMap fun row => row.spelling?.map Spelling.byte

/-- Binary digits are zeros and ones. -/
theorem bit_of_mem_toDigits {n : Nat} {c : Char} (h : c ∈ Nat.toDigits 2 n) :
    c = '0' ∨ c = '1' := by
  obtain ⟨d, hd, rfl⟩ := Numeral.exists_digit_of_mem_toDigits (by decide) h
  rcases (show d = 0 ∨ d = 1 by omega) with rfl | rfl
  · exact .inl rfl
  · exact .inr rfl

theorem Spelling.isDigits (s : Spelling) : IsDigits s.digits := by
  have hlength : (Nat.toDigits 2 s.byte.toNat).length ≤ 8 :=
    (Nat.length_toDigits_le_iff (by decide) (by decide)).mpr s.byte.toNat_lt
  have hpos : 0 < (Nat.toDigits 2 s.byte.toNat).length := Nat.length_toDigits_pos
  have hwidth := s.width_le
  refine ⟨?_, ?_, ?_⟩
  · rw [digits, Numeral.binary, List.length_leftpad]
    omega
  · rw [digits, Numeral.binary, List.length_leftpad]
    omega
  · intro c hc
    rw [digits, Numeral.binary, List.leftpad, List.mem_append] at hc
    rcases hc with hc | hc
    · exact .inl (List.eq_of_mem_replicate hc)
    · exact bit_of_mem_toDigits hc

/-- What is behind the digits of a row is white space and a comment. -/
theorem Row.exists_comment (row : Row) :
    ∃ space comment, IsSpace space ∧ IsComment comment ∧
      row.gap ++ row.ending = space ++ comment := by
  have hreturn : IsSpace (if row.returned then ['\r'] else []) := by
    split
    · intro c hc
      obtain rfl := List.mem_singleton.mp hc
      rfl
    · exact nofun
  rw [ending]
  cases row.comment? with
  | none => exact ⟨_, [], row.gap_space.append hreturn, .nothing, (List.append_nil _).symm⟩
  | some comment => exact ⟨row.gap, _, row.gap_space, .hash _, rfl⟩

/-- A row is of the form of a segment. -/
theorem Row.hasForm (row : Row) : HasForm row.text (row.spelling?.map Spelling.digits) := by
  obtain ⟨space, comment, hspace, hcomment, hbehind⟩ := row.exists_comment
  rw [text, List.append_assoc, hbehind, ← List.append_assoc]
  cases row.spelling? with
  | none =>
    rw [Option.map_none, Option.getD_none, List.append_nil]
    exact .blank (row.indent_space.append hspace) hcomment
  | some s => exact .byte row.indent_space s.isDigits hspace hcomment

theorem Row.newline_not_mem (row : Row) : '\n' ∉ row.text := by
  have hunbroken := row.unbroken
  have hdigits : '\n' ∉ (row.spelling?.map Spelling.digits).getD [] := by
    cases row.spelling? with
    | none => exact nofun
    | some s =>
      intro hmem
      rcases s.isDigits.2.2 _ hmem with h | h <;> cases h
  have hending : '\n' ∈ row.ending → '\n' ∈ row.comment?.getD [] := by
    rw [ending]
    cases row.comment? <;> cases row.returned <;> simp
  simp only [List.mem_append, not_or] at hunbroken
  simp only [text, List.mem_append, not_or]
  exact ⟨⟨⟨hunbroken.1.1, hdigits⟩, hunbroken.1.2⟩, fun h => hunbroken.2 (hending h)⟩

/-- Rows are the segments of what is written. -/
theorem forms_of_written (rows : List Row) :
    ∃ forms, List.Forall₂ HasForm (segments (written rows)) forms ∧
      forms.reduceOption.map Numeral.ofBinary = (bytesOf rows).map UInt8.toNat := by
  have hbytes : (rows.map fun row => row.spelling?.map Spelling.digits).reduceOption.map
      Numeral.ofBinary = (bytesOf rows).map UInt8.toNat := by
    induction rows with
    | nil => rfl
    | cons row rows ih =>
      rw [List.map_cons, bytesOf, List.filterMap_cons]
      cases row.spelling? with
      | none => exact ih
      | some s =>
        rw [Option.map_some, List.reduceOption_cons_of_some, List.map_cons, ih, Spelling.digits,
          Numeral.ofBinary_binary]
        rfl
  cases rows with
  | nil =>
    have hempty : HasForm [] none := hasForm_none_iff.mpr rfl
    exact ⟨[none], .cons hempty .nil, rfl⟩
  | cons row rows =>
    refine ⟨_, ?_, hbytes⟩
    rw [segments, written, List.splitOn_intercalate]
    · rw [List.forall₂_map_left_iff, List.forall₂_map_right_iff, List.forall₂_same]
      exact fun row _ => row.hasForm
    · intro text htext
      obtain ⟨row, -, rfl⟩ := List.mem_map.mp htext
      exact row.newline_not_mem
    · exact List.cons_ne_nil _ _

/-- Bytes that are written in rows are loaded, and zeros behind them. -/
theorem load_written {size : Nat} {rows : List Row} (hsize : (bytesOf rows).length ≤ size) :
    ∃ loaded, load (Memory.zero : Memory size) (written rows) = .ok loaded ∧
      loaded.memory.toList = bytesOf rows ++ List.replicate (size - (bytesOf rows).length) 0 := by
  obtain ⟨forms, hforms, hnumbers⟩ := forms_of_written rows
  have hlength := congrArg List.length hnumbers
  rw [List.length_map, List.length_map] at hlength
  obtain ⟨loaded, hload, -, hcells⟩ := load_of_forms hforms (hlength.trans_le hsize)
  refine ⟨loaded, hload, ?_⟩
  have hinjective : Function.Injective UInt8.toNat := fun _ _ => UInt8.toNat_inj.mp
  apply hinjective.list_map
  rw [hcells, numbersOf, hnumbers, hlength, List.map_append, List.map_replicate]
  rfl

/-- **The loader accepts exactly the texts of the grammar.**  A text is loaded if all its segments
are of the form and no more of them have digits than there are cells; then the numbers that these
denote are in memory, in order and from address 0 on, and zeros behind them.  So bytes may be
written in any way, with zeros in front, white space and comments, lines without a byte, carriage
returns, a newline at the end or not: what is loaded are the bytes. -/
theorem load_grammar (size : Nat) :
    (∀ text, (∃ loaded, load (Memory.zero : Memory size) text = .ok loaded) ↔
      ∃ forms, List.Forall₂ HasForm (segments text) forms ∧ forms.reduceOption.length ≤ size) ∧
    (∀ text forms, List.Forall₂ HasForm (segments text) forms →
      forms.reduceOption.length ≤ size →
      ∃ loaded, load (Memory.zero : Memory size) text = .ok loaded ∧
        loaded.count = forms.reduceOption.length ∧
        loaded.memory.toList.map UInt8.toNat = numbersOf size forms.reduceOption) ∧
    ∀ bytes, bytes.length ≤ size → ∀ rows, bytesOf rows = bytes →
      ∃ loaded, load (Memory.zero : Memory size) (written rows) = .ok loaded ∧
        loaded.memory.toList = bytes ++ List.replicate (size - bytes.length) 0 := by
  refine ⟨?_, ?_, ?_⟩
  · intro text
    constructor
    · rintro ⟨loaded, hload⟩
      exact exists_forms_of_load hload
    · rintro ⟨forms, hforms, hsize⟩
      obtain ⟨loaded, hload, -⟩ := load_of_forms hforms hsize
      exact ⟨loaded, hload⟩
  · intro text forms hforms hsize
    exact load_of_forms hforms hsize
  · rintro bytes hsize rows rfl
    exact load_written hsize

/-- Two bytes in three lines, with white space of several kinds and no newline at the end. -/
def ragged : List Char := "\t1\u00a0# one\r\n\r\n0000010\r".toList

/-- A five in four digits. -/
def padded : Row where
  indent := [' ']
  spelling? := some ⟨5, 4, by decide⟩
  gap := ['\u2003']
  comment? := some "five".toList
  returned := true
  indent_space := by decide
  gap_space := by decide
  unbroken := by decide

/-- `ragged` fits into three cells and not into one, and `padded` may be written twice. -/
theorem load_grammar_ragged_padded :
    (∃ loaded, load (Memory.zero : Memory 3) ragged = .ok loaded ∧
      loaded.memory.toList.map UInt8.toNat = [1, 2, 0]) ∧
    (¬∃ loaded, load (Memory.zero : Memory 1) ragged = .ok loaded) ∧
    ∃ loaded, load (Memory.zero : Memory 2) (written [padded, padded]) = .ok loaded ∧
      loaded.memory.toList = [5, 5] := by
  have hspelled : spelled (segments ragged) = ["1".toList, "0000010".toList] := by decide +kernel
  obtain ⟨-, hloads, -⟩ := load_grammar 3
  obtain ⟨haccepts, -⟩ := load_grammar 1
  obtain ⟨-, -, hwritten⟩ := load_grammar 2
  refine ⟨?_, ?_, hwritten [5, 5] (by decide) [padded, padded] rfl⟩
  · have hdigits : ∀ digits ∈ spelled (segments ragged), IsDigits digits := by
      rw [hspelled]
      decide
    obtain ⟨forms, hforms⟩ := exists_forms hdigits
    have hnumbers := (reduceOption_of_forms hforms).1.trans hspelled
    have hsize : forms.reduceOption.length ≤ 3 := by
      rw [hnumbers]
      decide
    obtain ⟨loaded, hload, -, hcells⟩ := hloads ragged forms hforms hsize
    refine ⟨loaded, hload, hcells.trans ?_⟩
    rw [hnumbers]
    decide +kernel
  · rw [haccepts ragged]
    rintro ⟨forms, hforms, hsize⟩
    rw [(reduceOption_of_forms hforms).1, hspelled] at hsize
    exact absurd hsize (by decide)

end LS8.Program
