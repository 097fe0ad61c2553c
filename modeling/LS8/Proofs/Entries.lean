/-
LS8/Proofs/Entries.lean

What the entries of the journal say.

    Replica.follow : Replica → Entry → Option Replica

reads the text of an entry and does to a replica of the machine what it says.
The words of the text tell what has happened, and the numbers in them with
which values; nothing else is looked at but the level.

`Instruction.Logs` spells out the entry of every instruction.  If an instruction
logs an entry and does its work by the rule (`Instruction.Does`), then following
the entry does the same work to the replica (`follow_of_logs`).
-/
import LS8.Journal.Event
import LS8.Proofs.Digits
import LS8.Proofs.Rules

namespace LS8

/-! ### Words and numbers -/

/-- The words of a text, which are kept apart by single spaces. -/
def words (text : String) : List String := (text.toList.splitOn ' ').map String.ofList

/-- The number whose decimal digits are the digits in a word. -/
def number (word : String) : Nat := Numeral.ofDecimal (word.toList.filter Char.isDigit)

@[simp] theorem toString_string (s : String) : toString s = s := rfl

@[simp] theorem toString_byte (b : Byte) : toString b = toString b.toNat := rfl

/-- Words without spaces, with single spaces between them, are the words of the text. -/
theorem words_eq {text : String} {ws : List String} (htext : text = " ".intercalate ws)
    (hws : ∀ word ∈ ws, ' ' ∉ word.toList) (hne : ws ≠ []) : words text = ws := by
  have hsplit : text.toList.splitOn ' ' = ws.map String.toList := by
    rw [htext, String.toList_intercalate]
    apply List.splitOn_intercalate
    · intro word hword
      obtain ⟨w, hw, rfl⟩ := List.mem_map.mp hword
      exact hws w hw
    · simpa using hne
  rw [words, hsplit, List.map_map]
  exact List.map_id'' (fun word => String.ofList_toList) ws

@[simp] theorem space_notMem_toDigits (n : Nat) : ' ' ∉ Nat.toDigits 10 n := by
  intro h
  have hdigit : Char.isDigit ' ' = true := Nat.isDigit_of_mem_toDigits (by decide) (by decide) h
  exact absurd hdigit (by decide)

/-- The number in a word, with characters around it that are no digits. -/
theorem number_eq {word : String} {n : Nat} (before after : List Char)
    (hword : word.toList = before ++ Nat.toDigits 10 n ++ after)
    (hbefore : ∀ c ∈ before, c.isDigit = false) (hafter : ∀ c ∈ after, c.isDigit = false) :
    number word = n := by
  have hdigits : (Nat.toDigits 10 n).filter Char.isDigit = Nat.toDigits 10 n := by
    rw [List.filter_eq_self]
    exact fun c => Nat.isDigit_of_mem_toDigits (by decide) (by decide)
  have hnone (cs : List Char) (hcs : ∀ c ∈ cs, c.isDigit = false) :
      cs.filter Char.isDigit = [] := by
    rw [List.filter_eq_nil_iff]
    intro c hc
    rw [hcs c hc]
    exact Bool.false_ne_true
  rw [number, hword, List.filter_append, List.filter_append, hnone before hbefore,
    hnone after hafter, hdigits, List.nil_append, List.append_nil]
  exact Numeral.ofDecimal_decimal n

theorem number_nat (n : Nat) : number s!"{n}" = n := number_eq [] [] (by simp) (by simp) (by simp)

theorem number_byte (b : Byte) : number s!"{b}" = b.toNat := number_nat b.toNat

/-- The number of a register. -/
theorem number_register (b : Byte) : number s!"R{b}" = b.toNat :=
  number_eq ['R'] [] (by simp) (List.forall_mem_singleton.mpr rfl) (by simp)

theorem number_register_colon (b : Byte) : number s!"R{b}:" = b.toNat :=
  number_eq ['R'] [':'] (by simp) (List.forall_mem_singleton.mpr rfl)
    (List.forall_mem_singleton.mpr rfl)

/-! ### Following entries -/

/-- What entries tell of a machine, and of its output. -/
structure Replica where
  pc : Nat
  registers : Nat → Option Byte
  memory : Nat → Option Byte
  output : List Char

/-- The machine as entries tell of it, with the output so far. -/
def Machine.replica (m : Machine) (output : List Char) : Replica :=
  ⟨m.pc.toNat, m.registers.cell?, m.memory.cell?, output⟩

/-- A replica shows all of a machine but its status and its flag. -/
theorem Machine.replica_inj {m m' : Machine} {output output' : List Char} :
    m.replica output = m'.replica output' ↔
      m.pc = m'.pc ∧ m.registers = m'.registers ∧ m.memory = m'.memory ∧ output = output' := by
  simp only [replica, Replica.mk.injEq, UInt16.toNat_inj]
  constructor
  · rintro ⟨hpc, hregisters, hmemory, houtput⟩
    exact ⟨hpc, Registers.ext_cell? (congrFun hregisters), Memory.ext_cell? (congrFun hmemory),
      houtput⟩
  · rintro ⟨hpc, hregisters, hmemory, houtput⟩
    rw [hregisters, hmemory]
    exact ⟨hpc, rfl, rfl, houtput⟩

/-- The operations of the arithmetic unit, and the words for them. -/
def operationWords : List (Operation × String) :=
  [(.add, "Add"), (.sub, "Sub"), (.mul, "Mul"), (.div, "Div")]

namespace Replica

variable (t : Replica)

/-- Move the program counter. -/
def skip (count : Nat) : Replica := { t with pc := t.pc + count }

/-- Set a register. -/
def put (register value : Nat) : Replica :=
  { t with registers := Function.update t.registers register (some value.toUInt8) }

/-- Set a cell of memory. -/
def store (address value : Nat) : Replica :=
  { t with memory := Function.update t.memory address (some value.toUInt8) }

/-- Print a number, on a line of its own. -/
def print (value : Nat) : Replica :=
  { t with output := t.output ++ (Numeral.decimal value ++ ['\n']) }

/-- Do what an entry says.  There is no sense in an entry of another kind. -/
def follow (entry : Entry) : Option Replica :=
  match entry.level, words entry.text with
  | .debug, ["LDI", register, value] => some ((t.put (number register) (number value)).skip 3)
  | .debug, ["PRN", _, value] => some ((t.print (number value)).skip 2)
  | .debug, ["HLT"] => some (t.skip 1)
  | .debug, ["POP", register, value] =>
    (t.registers 7).map fun sp =>
      ((t.put (number register) (number value)).put 7 (sp.toNat + 1)).skip 2
  | .debug, ["PUSH", _, value] =>
    (t.registers 7).map fun sp =>
      ((t.put 7 (sp.toNat - 1)).store (sp.toNat - 1) (number value)).skip 2
  | .debug, [name, register, _, _, _, "->", value] =>
    if name ∈ operationWords.map Prod.snd then
      some ((t.put (number register) (number value)).skip 3)
    else none
  | .warn, ["Unsupported", "operation", _, "at", _, "skipping", count, "byte(s)"] =>
    some (t.skip (number count))
  | .info, ["Program", "halted.", "PC:", _] => some t
  | _, _ => none

/-- Follow entries one after the other. -/
def replay (entries : List Entry) : Option Replica := entries.foldlM follow t

@[simp] theorem replay_nil : t.replay [] = some t := rfl

theorem replay_cons (entry : Entry) (entries : List Entry) :
    t.replay (entry :: entries) = (t.follow entry).bind fun t => t.replay entries :=
  List.foldlM_cons

theorem replay_append (entries entries' : List Entry) :
    t.replay (entries ++ entries') = (t.replay entries).bind fun t => t.replay entries' :=
  List.foldlM_append

end Replica

/-! ### The entries of instructions -/

/-- What an instruction that does its work tells a logger. -/
inductive Instruction.Logs (r : Registers) (m : Ram) : Instruction → Entry → Prop
  /-- The register and the byte that it is set to. -/
  | ldi (register value : Byte) :
      Logs r m (.ldi register value)
        ⟨.debug, "ls8::processor::handlers", s!"LDI R{register} {value}"⟩
  /-- The register and its value. -/
  | prn {register value : Byte} (hvalue : r.cell? register.toNat = some value) :
      Logs r m (.prn register)
        ⟨.debug, "ls8::processor::handlers", s!"PRN R{register}: {value}"⟩
  | hlt : Logs r m .hlt ⟨.debug, "ls8::processor::handlers", "HLT"⟩
  /-- The register and the byte at the top of the stack. -/
  | pop {register value : Byte} (hvalue : m.cell? r.sp.toNat = some value) :
      Logs r m (.pop register)
        ⟨.debug, "ls8::processor::handlers", s!"POP R{register}: {value}"⟩
  /-- The register and its value, the stack pointer as it has moved. -/
  | push {register value top : Byte} (htop : top.toNat + 1 = r.sp.toNat)
      (hvalue : (if register = 7 then some top else r.cell? register.toNat) = some value) :
      Logs r m (.push register)
        ⟨.debug, "ls8::processor::handlers", s!"PUSH R{register}: {value}"⟩
  /-- Both registers with their values, and what is computed of these. -/
  | arith {op : Operation} {target source x y z : Byte} {name : String}
      (hname : (op, name) ∈ operationWords)
      (hx : r.cell? target.toNat = some x) (hy : r.cell? source.toNat = some y)
      (hdivisor : op = .div → y ≠ 0) (hz : (z.toNat : Int) = op.exact x.toNat y.toNat % 256) :
      Logs r m (.arith op target source)
        ⟨.debug, "ls8::alu", s!"{name} R{target} R{source}: {x} {y} -> {z}"⟩

/-! ### Digits in entries -/

/-- The binary digits of a byte, eight of them. -/
def bits (code : Byte) : String :=
  String.ofList (((Nat.digits 2 code.toNat).reverse.map Nat.digitChar).leftpad 8 '0')

/-- The upper-case hexadecimal digits of an address, at least two of them. -/
def hexits (address : Address) : String :=
  String.ofList (((Nat.digits 16 address.toNat).reverse.map Numeral.upperDigit).leftpad 2 '0')

theorem ofList_binary (code : Byte) : String.ofList (Numeral.binary 8 code.toNat) = bits code :=
  congrArg String.ofList (Numeral.binary_eq_digits (by decide) code.toNat)

theorem ofList_hex (address : Address) :
    String.ofList (Numeral.hex 2 address.toNat) = hexits address :=
  congrArg String.ofList (Numeral.hex_eq_digits (by decide) address.toNat)

theorem space_notMem_bits (code : Byte) : ' ' ∉ (bits code).toList := by
  rw [← ofList_binary, String.toList_ofList, Numeral.binary, List.leftpad, List.mem_append]
  rintro (h | h)
  · exact absurd (List.eq_of_mem_replicate h) (by decide)
  · obtain ⟨d, hd, hspace⟩ := Numeral.exists_digit_of_mem_toDigits (by decide) h
    have hcases : d = 0 ∨ d = 1 := by omega
    rcases hcases with rfl | rfl <;> exact absurd hspace (by decide)

theorem space_notMem_hexits (address : Address) : ' ' ∉ (hexits address).toList := by
  rw [← ofList_hex, String.toList_ofList]
  exact Numeral.space_notMem_hex 2 address.toNat

/-- What is told of a byte that is passed over, and of `count` bytes with it. -/
theorem Record.entry_skipped {code : Byte} {count : Nat} (hcount : count = code.toNat / 64 + 1)
    (pc : Address) :
    (Record.skipped code pc).entry =
      ⟨.warn, "ls8::processor",
        s!"Unsupported operation 0b{bits code} at 0x{hexits pc}, skipping {count} byte(s)"⟩ := by
  rw [hcount, ← widthOf_toNat, ← ofList_binary, ← ofList_hex]
  rfl

/-- What is told of the end of a run. -/
theorem Record.entry_finished (pc : Address) :
    (Record.finished pc).entry =
      ⟨.info, "ls8::processor", s!"Program halted. PC: 0x{hexits pc}"⟩ := by
  rw [← ofList_hex]
  rfl

/-! ### The words of the entries -/

theorem words_ldi (register value : Byte) :
    words s!"LDI R{register} {value}" = ["LDI", s!"R{register}", s!"{value}"] :=
  words_eq (String.toList_inj.mp (by simp)) (by simp) (by simp)

theorem words_prn (register value : Byte) :
    words s!"PRN R{register}: {value}" = ["PRN", s!"R{register}:", s!"{value}"] :=
  words_eq (String.toList_inj.mp (by simp)) (by simp) (by simp)

theorem words_hlt : words "HLT" = ["HLT"] := words_eq rfl (by simp) (by simp)

theorem words_pop (register value : Byte) :
    words s!"POP R{register}: {value}" = ["POP", s!"R{register}:", s!"{value}"] :=
  words_eq (String.toList_inj.mp (by simp)) (by simp) (by simp)

theorem words_push (register value : Byte) :
    words s!"PUSH R{register}: {value}" = ["PUSH", s!"R{register}:", s!"{value}"] :=
  words_eq (String.toList_inj.mp (by simp)) (by simp) (by simp)

theorem words_arith {op : Operation} {name : String} (hname : (op, name) ∈ operationWords)
    (target source x y z : Byte) :
    words s!"{name} R{target} R{source}: {x} {y} -> {z}" =
      [name, s!"R{target}", s!"R{source}:", s!"{x}", s!"{y}", "->", s!"{z}"] := by
  have hspace : ' ' ∉ name.toList := by
    simp only [operationWords, List.mem_cons, Prod.mk.injEq, List.not_mem_nil, or_false] at hname
    rcases hname with ⟨-, rfl⟩ | ⟨-, rfl⟩ | ⟨-, rfl⟩ | ⟨-, rfl⟩ <;> simp
  exact words_eq (String.toList_inj.mp (by simp)) (by simp [hspace]) (by simp)

theorem words_skipped (code : Byte) (pc : Address) (count : Nat) :
    words s!"Unsupported operation 0b{bits code} at 0x{hexits pc}, skipping {count} byte(s)" =
      ["Unsupported", "operation", s!"0b{bits code}", "at", s!"0x{hexits pc},", "skipping",
        s!"{count}", "byte(s)"] :=
  words_eq (String.toList_inj.mp (by simp))
    (by simp [space_notMem_bits, space_notMem_hexits]) (by simp)

theorem words_finished (pc : Address) :
    words s!"Program halted. PC: 0x{hexits pc}" =
      ["Program", "halted.", "PC:", s!"0x{hexits pc}"] :=
  words_eq (String.toList_inj.mp (by simp)) (by simp [space_notMem_hexits]) (by simp)

/-! ### Following the entries of a run -/

/-- A warning moves the program counter by the number of bytes that it tells. -/
theorem Replica.follow_skipped (t : Replica) (target : String) (code : Byte) (pc : Address)
    (count : Nat) :
    t.follow ⟨.warn, target,
      s!"Unsupported operation 0b{bits code} at 0x{hexits pc}, skipping {count} byte(s)"⟩ =
      some (t.skip count) := by
  simp only [follow, words_skipped, number_nat]

/-- The last entry of a run changes nothing. -/
theorem Replica.follow_finished (t : Replica) (target : String) (pc : Address) :
    t.follow ⟨.info, target, s!"Program halted. PC: 0x{hexits pc}"⟩ = some t := by
  simp only [follow, words_finished]

/-- **To follow the entry of an instruction is to do what its rule says.** -/
theorem Replica.follow_of_logs {i : Instruction} {r : Registers} {m : Ram} {e : Effect}
    {entry : Entry} (hlogs : i.Logs r m entry) (hdoes : i.Does r m e) (pc : Nat)
    (output : List Char) :
    Replica.follow ⟨pc, r.cell?, m.cell?, output⟩ entry =
      some ⟨pc + i.encode.length, e.registers.cell?, e.memory.cell?, output ++ e.text⟩ := by
  have hbyte (b : Byte) : b.toNat.toUInt8 = b := UInt8.ofNat_toNat
  cases hlogs with
  | ldi register value =>
    cases hdoes with
    | ldi _ hr =>
      simp only [follow, words_ldi, number_register, number_byte, put, skip, hbyte]
      rw [hr, List.append_nil]
      rfl
  | prn hvalue =>
    cases hdoes with
    | prn hvalue' =>
      simp only [follow, words_prn, number_byte, print, skip]
      obtain rfl := Option.some.inj (hvalue'.symm.trans hvalue)
      rfl
  | hlt =>
    cases hdoes with
    | hlt =>
      simp only [follow, words_hlt, skip]
      rw [List.append_nil]
      rfl
  | pop hvalue =>
    cases hdoes with
    | pop _ hvalue' htop hr =>
      simp only [follow, words_pop, number_register_colon, number_byte, put, skip,
        Registers.cell?_seven, Option.map_some, ← htop, hbyte]
      obtain rfl := Option.some.inj (hvalue'.symm.trans hvalue)
      rw [hr, List.append_nil]
      rfl
  | @push register value top htop hvalue =>
    cases hdoes with
    | @push _ value' top' r' m' htop' hvalue' hr hm =>
      obtain rfl : top' = top := UInt8.toNat_inj.mp (Nat.succ.inj (htop'.trans htop.symm))
      obtain rfl := Option.some.inj (hvalue'.symm.trans hvalue)
      have hsp : r.sp.toNat - 1 = top'.toNat := by omega
      simp only [follow, words_push, number_byte, put, store, skip, Registers.cell?_seven,
        Option.map_some, hsp, hbyte]
      rw [hr, hm, List.append_nil]
      rfl
  | @arith op target source x y z name hname hx hy _ hz =>
    cases hdoes with
    | @arith _ _ _ x' y' z' r' _ hx' hy' _ hz' hr =>
      obtain rfl := Option.some.inj (hx'.symm.trans hx)
      obtain rfl := Option.some.inj (hy'.symm.trans hy)
      obtain rfl : z' = z := UInt8.toNat_inj.mp (Int.ofNat.inj (hz'.trans hz.symm))
      simp only [follow, words_arith hname, number_register, number_byte, put, skip, hbyte]
      rw [if_pos (List.mem_map_of_mem hname), hr, List.append_nil]
      rfl

end LS8
