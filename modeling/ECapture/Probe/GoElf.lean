import ECapture.Library.Fault
import ECapture.Probe.GoVersion

/-!
# Attach points in a Go executable

`internal/probe/gotls/config_symbol.go`: `ReadTable`, which finds the function table of the runtime,
and the routines that look for a function and for the RET instructions in it. `debug/elf` has read
the file; `debug/gosym` and the instruction decoders are parameters.

Addresses are unsigned words, and the sums and differences of the source wrap around.
-/

namespace ECapture.Probe.GoElf
open Library

/-! ## What `debug/elf` gives -/

/-- How a call may end other than by returning. -/
inductive Panic where
  | fault (f : Fault)
  | makeSlice
  deriving DecidableEq, Repr

/-- A call of a function that returns a value or an error, which is its text. -/
abbrev Outcome (α : Type) := Except Panic (Except Bytes α)

/-- The call returns, with a value or with an error. -/
def Returns {α : Type} (x : Outcome α) : Prop := ∃ r, x = .ok r

/-- A slice with the memory up to its capacity, which a slice expression may use. -/
structure Buffer where
  bytes : Bytes
  spare : Bytes

namespace Buffer

def cap (b : Buffer) : Nat := (b.bytes ++ b.spare).length

/-- `b[start:stop]`. -/
def slice (b : Buffer) (start stop : UInt64) : Except Panic Bytes :=
  if start ≤ stop ∧ stop.toNat ≤ b.cap then
    .ok (((b.bytes ++ b.spare).take stop.toNat).drop start.toNat)
  else .error (.fault .sliceBounds)

end Buffer

/-- `Data` gives as many bytes as the header says, or fails. -/
structure Section where
  name : Bytes
  addr : UInt64
  offset : UInt64
  size : UInt64
  data : Except Bytes Buffer
  full : ∀ b, data = .ok b → b.bytes.length = size.toNat

structure Symbol where
  name : Bytes
  sectionIndex : UInt16
  value : UInt64
  size : UInt64

structure Prog where
  type : UInt32
  flags : UInt32
  off : UInt64
  vaddr : UInt64
  filesz : UInt64
  memsz : UInt64

def ptLoad : UInt32 := 1
def pfX : UInt32 := 1

namespace Prog

/-- The segments that the loops do not skip. -/
def isExec (p : Prog) : Bool := !(p.type != ptLoad || p.flags &&& pfX == 0)

/-- `prog.Vaddr <= addr && addr < (prog.Vaddr+prog.Memsz)`. -/
def contains (p : Prog) (addr : UInt64) : Bool := p.vaddr ≤ addr && addr < p.vaddr + p.memsz

/-- `prog.ReadAt` into `n` bytes: a section reader over the bytes of the segment in the file. -/
def readAt (file : Bytes) (p : Prog) (n : Nat) (off : Int64) : Except Bytes Bytes :=
  let eof := str "EOF"
  if off < 0 ∨ p.filesz.toNat ≤ off.toInt.toNat then .error eof
  else
    let start := p.off.toNat + off.toInt.toNat
    if p.filesz.toNat < off.toInt.toNat + n ∨ file.length < start + n then .error eof
    else .ok ((file.drop start).take n)

end Prog

/-- An ELF file. The two symbol lists are empty where they could not be read. -/
structure ElfFile where
  file : Bytes
  sections : List Section
  progs : List Prog
  symbols : List Symbol
  dynamicSymbols : List Symbol

def ElfFile.section? (e : ElfFile) (name : Bytes) : Option Section :=
  e.sections.find? fun s => s.name = name

/-! ## Instructions -/

/-- What a decoder says of the next instruction. -/
structure Inst where
  isRet : Bool
  len : Nat
  pos : 0 < len

/-- The loop of `decodeInstruction` at index `i`, after which `skip` bytes belong to the instruction
before. -/
def retsFrom (next : Bytes → Except Bytes Inst) (i : Nat) : (skip : Nat) → Bytes →
    Except Bytes (List Nat)
  | _, [] => .ok []
  | skip + 1, _ :: code => retsFrom next (i + 1) skip code
  | 0, b :: code => do
    let inst ← next (b :: code)
    let rest ← retsFrom next (i + 1) (inst.len - 1) code
    return if inst.isRet then i :: rest else rest

/-- The decoders of the two architectures. The errors of the second are ignored. -/
inductive Decoder where
  | amd64 (decode : Bytes → Except Bytes Inst)
  | arm64 (isRet : Bytes → Bool)

def arm64armInstSize : Nat := 4

def decodeInstruction : Decoder → Bytes → Except Bytes (List Nat)
  | .amd64 decode, instHex => retsFrom decode 0 0 instHex
  | .arm64 isRet, instHex =>
    retsFrom (fun code => .ok ⟨isRet code, arm64armInstSize, by decide⟩) 0 0 instHex

/-! ## The function table -/

/-- `gosym.Func`; `value` is that of its symbol. -/
structure Func where
  name : Bytes
  value : UInt64
  entry : UInt64
  endAddr : UInt64
  deriving DecidableEq

/-- `gosym.Table`: its functions. -/
abbrev SymTab := List Func

def SymTab.lookupFunc (t : SymTab) (name : Bytes) : Option Func := t.find? fun f => f.name = name

/-- `bytes.Index`. -/
def bytesIndex (s sep : Bytes) : Option Nat :=
  (List.range (s.length + 1)).find? fun i => sep.isPrefixOf (s.drop i)

def errorSymbolEmpty : Bytes := str "symbol is empty"
def errorSymbolNotFound : Bytes := str "symbol not found"
def errorSymbolNotFoundFromTable : Bytes := str "symbol not found from table"
def errorNoRetFound : Bytes := str "no RET instructions found"
def errorNoFuncFoundFromSymTabFun : Bytes :=
  str "no function found from golang symbol table with Func Name"
def errorTextSectionNotFound : Bytes := str "`.text` section not found"

/-- The section of the table, and the name it was last looked for under. -/
def pclntabSection (e : ElfFile) : Bytes × Option Section :=
  match e.section? (str ".gopclntab") with
  | some s => (str ".gopclntab", some s)
  | none =>
    match e.section? (str ".data.rel.ro.gopclntab") with
    | some s => (str ".data.rel.ro.gopclntab", some s)
    | none => (str ".data.rel.ro", e.section? (str ".data.rel.ro"))

/-- `binary.LittleEndian.Uint32` for 4 bytes and `Uint64` for 8. -/
def littleEndian (n : Nat) (b : Bytes) : Except Panic UInt64 :=
  if n ≤ b.length then .ok (.ofNat (leNat (b.take n))) else .error (.fault .indexRange)

/-- The block of `ReadTable` that reads the start of the text. -/
def textStart (tableData : Bytes) : Except Panic UInt64 :=
  match tableData[7]? with
  | none => .error (.fault .indexRange)
  | some ptrSize =>
    let low := 8 + 2 * ptrSize.toNat
    if tableData.length < low then .error (.fault .sliceBounds)
    else littleEndian (if ptrSize = 4 then 4 else 8) (tableData.drop low)

/-- `ReadTable`; `newTable` is `gosym.NewLineTable` followed by `gosym.NewTable`. -/
def readTable (newTable : Bytes → UInt64 → Option SymTab) (goVersion elfPath : Bytes)
    (e : ElfFile) : Outcome SymTab :=
  let (sectionLabel, sec) := pclntabSection e
  match sec with
  | none => .ok (.error (str "could not read section " ++ sectionLabel ++ str " from " ++ elfPath ++
      str " "))
  | some sec =>
    match sec.data with
    | .error _ => .ok (.error (str "found section but could not read " ++ sectionLabel ++
        str " from " ++ elfPath ++ str " "))
    | .ok data =>
      match bytesIndex data.bytes (magicNumber goVersion) with
      | none => .ok (.error (str "could not find magic number in " ++ elfPath ++ str " "))
      | some pclntabIndex =>
        let tableData := data.bytes.drop pclntabIndex
        match textStart tableData with
        | .error p => .error p
        | .ok addr =>
          match newTable tableData addr with
          | none => .ok (.error errorSymbolNotFoundFromTable)
          | some symTable => .ok (.ok symTable)

/-! ## Offsets of functions and of RET instructions -/

/-- `offsets[i] = int(address) + offset`. -/
def shifted (address : UInt64) (offsets : List Nat) : List Int64 :=
  offsets.map fun offset => address.toInt64 + .ofNat offset

/-- The segment that a loop over `Progs` stops at. -/
def ElfFile.execProg? (e : ElfFile) (addr : UInt64) : Option Prog :=
  e.progs.find? fun p => p.isExec && p.contains addr

/-- `findRetOffsets`: by the symbol tables. -/
def findRetOffsets (d : Decoder) (e : ElfFile) (symbolName : Bytes) : Outcome (List Int64) :=
  let allSymbs := e.symbols ++ e.dynamicSymbols
  if allSymbs = [] then .ok (.error errorSymbolEmpty)
  else
    match allSymbs.find? (fun s => s.name = symbolName) with
    | none => .ok (.error errorSymbolNotFound)
    | some symbol =>
      match e.sections[symbol.sectionIndex.toNat]? with
      | none => .error (.fault .indexRange)
      | some sec =>
        match sec.data with
        | .error err => .ok (.error err)
        | .ok elfText =>
          let start := symbol.value - sec.addr
          match elfText.slice start (start + symbol.size) with
          | .error p => .error p
          | .ok instHex =>
            let offsets := (decodeInstruction d instHex).toOption.getD []
            if offsets = [] then .ok (.error errorNoRetFound)
            else
              let address :=
                match e.execProg? symbol.value with
                | some prog => symbol.value - prog.vaddr + prog.off
                | none => symbol.value
              .ok (.ok (shifted address offsets))

def findPieSymbolAddr (t : SymTab) (lfunc : Bytes) : Except Bytes UInt64 :=
  match t.lookupFunc lfunc with
  | none => .error errorNoFuncFoundFromSymTabFun
  | some f => .ok f.value

def findingFunctionReturn (err : Bytes) : Bytes := str "finding function return: " ++ err

/-- `findRetOffsetsPie`: in the first executable segment. `make` gives `maxAlloc` bytes at most. -/
def findRetOffsetsPie (d : Decoder) (maxAlloc : Nat) (e : ElfFile) (t : SymTab) (lfunc : Bytes) :
    Outcome (List Int64) :=
  match t.lookupFunc lfunc with
  | none => .ok (.error errorNoFuncFoundFromSymTabFun)
  | some f =>
    let address := f.value
    let funcLen := f.endAddr - f.entry
    match e.progs.find? Prog.isExec with
    | none => .ok (.error (str "cant found gotls symbol offsets"))
    | some prog =>
      if maxAlloc < funcLen.toNat then .error .makeSlice
      else
        match prog.readAt e.file funcLen.toNat (address - prog.vaddr).toInt64 with
        | .error err => .ok (.error (findingFunctionReturn err))
        | .ok data =>
          match decodeInstruction d data with
          | .error err => .ok (.error (findingFunctionReturn err))
          | .ok offsets => .ok (.ok (shifted address offsets))

def findSymbolAddr (e : ElfFile) (t : SymTab) (lfunc : Bytes) : Except Bytes UInt64 :=
  match t.lookupFunc lfunc with
  | none => .error errorNoFuncFoundFromSymTabFun
  | some f =>
    match e.section? (str ".text") with
    | none => .error errorTextSectionNotFound
    | some textSect => .ok (f.entry - textSect.addr + textSect.offset)

/-- `findSymbolRetOffsets`: by the function table. -/
def findSymbolRetOffsets (d : Decoder) (e : ElfFile) (t : SymTab) (lfunc : Bytes) :
    Outcome (List Int64) :=
  match t.lookupFunc lfunc with
  | none => .ok (.error errorNoFuncFoundFromSymTabFun)
  | some f =>
    match e.section? (str ".text") with
    | none => .ok (.error errorTextSectionNotFound)
    | some textSect =>
      match textSect.data with
      | .error err => .ok (.error err)
      | .ok textData =>
        let start := f.entry - textSect.addr
        let stop := f.endAddr - textSect.addr
        if stop ≤ start ∨ textSect.size < start ∨ textSect.size < stop then
          .ok (.error (str "invalid function range start: " ++ dec start.toNat ++ str ", end: " ++
            dec stop.toNat))
        else
          match textData.slice start stop with
          | .error p => .error p
          | .ok instHex =>
            match decodeInstruction d instHex with
            | .error err => .ok (.error err)
            | .ok offsets =>
              match e.execProg? f.entry with
              | none => .ok (.error (str "cant found GoTLS ret offsets"))
              | some prog => .ok (.ok (shifted (f.entry - prog.vaddr + prog.off) offsets))

/-! ## When the routines return -/

@[simp] theorem returns_ok {α : Type} (r : Except Bytes α) : Returns (.ok r : Outcome α) := ⟨r, rfl⟩

@[simp] theorem not_returns_error {α : Type} (p : Panic) : ¬ Returns (.error p : Outcome α) := by
  rintro ⟨r, h⟩
  cases h

/-- The function table is long enough for the pointers behind its header. -/
def HeaderFits (tableData : Bytes) : Prop :=
  ∃ ptrSize, tableData[7]? = some ptrSize ∧
    8 + 2 * ptrSize.toNat + (if ptrSize = 4 then 4 else 8) ≤ tableData.length

theorem textStart_eq_ok_iff (tableData : Bytes) :
    (∃ addr, textStart tableData = .ok addr) ↔ HeaderFits tableData := by
  unfold textStart HeaderFits
  cases tableData[7]? with
  | none => simp
  | some ptrSize =>
    simp only [Option.some.injEq, exists_eq_left', littleEndian, List.length_drop]
    generalize (if ptrSize = 4 then 4 else 8) = size
    split
    · simp
      omega
    · split
      · simp
        omega
      · simp
        omega

/-- Where the magic number is found, the table that starts there fits. -/
def TableFits (goVersion : Bytes) (e : ElfFile) : Prop :=
  ∀ sec, (pclntabSection e).2 = some sec → ∀ data, sec.data = .ok data →
    ∀ pclntabIndex, bytesIndex data.bytes (magicNumber goVersion) = some pclntabIndex →
      HeaderFits (data.bytes.drop pclntabIndex)

theorem returns_readTable_iff (newTable : Bytes → UInt64 → Option SymTab)
    (goVersion elfPath : Bytes) (e : ElfFile) :
    Returns (readTable newTable goVersion elfPath e) ↔ TableFits goVersion e := by
  unfold readTable TableFits
  obtain ⟨sectionLabel, sec⟩ := pclntabSection e
  cases sec with
  | none => simp
  | some sec =>
    cases data : sec.data with
    | error err => simp [data]
    | ok b =>
      cases found : bytesIndex b.bytes (magicNumber goVersion) with
      | none => simp [data, found]
      | some i =>
        have fits := textStart_eq_ok_iff (b.bytes.drop i)
        cases start : textStart (b.bytes.drop i) with
        | error p => simpa [data, found, start] using fits
        | ok addr =>
          have fits : HeaderFits (b.bytes.drop i) := fits.mp ⟨addr, start⟩
          simp only [data, found, start]
          split <;> simp [data, found, fits]

theorem range_iff (start size : UInt64) (cap : Nat) :
    start ≤ start + size ∧ (start + size).toNat ≤ cap ↔
      start.toNat + size.toNat < 2 ^ 64 ∧ start.toNat + size.toNat ≤ cap := by
  have := start.toNat_lt
  have := size.toNat_lt
  rw [UInt64.le_iff_toNat_le, UInt64.toNat_add]
  omega

/-- The symbol has a section, and as many bytes as its size from where it starts in the section,
which is far away for a symbol below the section. -/
def SymbolFits (e : ElfFile) (symbolName : Bytes) : Prop :=
  ∀ symbol, (e.symbols ++ e.dynamicSymbols).find? (fun s => s.name = symbolName) = some symbol →
    ∃ sec, e.sections[symbol.sectionIndex.toNat]? = some sec ∧
      ∀ data, sec.data = .ok data →
        (symbol.value - sec.addr).toNat + symbol.size.toNat < 2 ^ 64 ∧
        (symbol.value - sec.addr).toNat + symbol.size.toNat ≤ data.cap

theorem returns_findRetOffsets_iff (d : Decoder) (e : ElfFile) (symbolName : Bytes) :
    Returns (findRetOffsets d e symbolName) ↔ SymbolFits e symbolName := by
  unfold findRetOffsets SymbolFits
  dsimp only
  split
  case isTrue empty => simp [empty]
  case isFalse =>
    cases (e.symbols ++ e.dynamicSymbols).find? (fun s => s.name = symbolName) with
    | none => simp
    | some symbol =>
      cases listed : e.sections[symbol.sectionIndex.toNat]? with
      | none => simp [listed]
      | some sec =>
        cases data : sec.data with
        | error err => simp [listed, data]
        | ok b =>
          simp only [listed, Option.some.injEq, forall_eq', exists_eq_left', data, Except.ok.injEq]
          rw [← range_iff]
          by_cases fits : symbol.value - sec.addr ≤ symbol.value - sec.addr + symbol.size ∧
              (symbol.value - sec.addr + symbol.size).toNat ≤ b.cap
          · rw [Buffer.slice, if_pos fits]
            refine iff_of_true ?_ fits
            dsimp only
            split <;> simp
          · rw [Buffer.slice, if_neg fits]
            exact iff_of_false (not_returns_error _) fits

/-- The function is no longer than what can be allocated, where there is a segment to read. -/
def FuncFits (maxAlloc : Nat) (e : ElfFile) (t : SymTab) (lfunc : Bytes) : Prop :=
  ∀ f, t.lookupFunc lfunc = some f → (∃ prog ∈ e.progs, prog.isExec) →
    (f.endAddr - f.entry).toNat ≤ maxAlloc

theorem returns_findRetOffsetsPie_iff (d : Decoder) (maxAlloc : Nat) (e : ElfFile) (t : SymTab)
    (lfunc : Bytes) :
    Returns (findRetOffsetsPie d maxAlloc e t lfunc) ↔ FuncFits maxAlloc e t lfunc := by
  unfold findRetOffsetsPie FuncFits
  cases t.lookupFunc lfunc with
  | none => simp
  | some f =>
    cases first : e.progs.find? Prog.isExec with
    | none =>
      have none : ¬ ∃ prog ∈ e.progs, prog.isExec := by
        simpa using first
      simp [none]
    | some prog =>
      have some : ∃ prog ∈ e.progs, prog.isExec :=
        ⟨prog, List.mem_of_find?_eq_some first, List.find?_some first⟩
      simp only [Option.some.injEq, forall_eq', some, true_imp_iff]
      split
      case isTrue long =>
        simp
        omega
      case isFalse short =>
        refine iff_of_true ?_ (by omega)
        split
        · simp
        · split <;> simp

/-- The range check keeps the slice within the section. -/
theorem returns_findSymbolRetOffsets (d : Decoder) (e : ElfFile) (t : SymTab) (lfunc : Bytes) :
    Returns (findSymbolRetOffsets d e t lfunc) := by
  unfold findSymbolRetOffsets
  cases t.lookupFunc lfunc with
  | none => simp
  | some f =>
    cases e.section? (str ".text") with
    | none => simp
    | some textSect =>
      cases data : textSect.data with
      | error err => simp [data]
      | ok b =>
        simp only [data]
        split
        · simp
        · rename_i range
          simp only [not_or, UInt64.not_le, UInt64.not_lt] at range
          obtain ⟨order, -, inside⟩ := range
          have full := textSect.full b data
          have fits : (f.endAddr - textSect.addr).toNat ≤ b.cap := by
            rw [UInt64.le_iff_toNat_le, ← full] at inside
            rw [Buffer.cap, List.length_append]
            omega
          rw [Buffer.slice, if_pos ⟨UInt64.le_of_lt order, fits⟩]
          dsimp only
          split
          · simp
          · split <;> simp

/-- When the routines return on a file, whatever its sections, symbols and functions are. Only the
last one checks its range. -/
theorem routines_return_iff (newTable : Bytes → UInt64 → Option SymTab) (goVersion elfPath : Bytes)
    (d : Decoder) (maxAlloc : Nat) (e : ElfFile) (t : SymTab) (name : Bytes) :
    (Returns (readTable newTable goVersion elfPath e) ↔ TableFits goVersion e) ∧
    (Returns (findRetOffsets d e name) ↔ SymbolFits e name) ∧
    (Returns (findRetOffsetsPie d maxAlloc e t name) ↔ FuncFits maxAlloc e t name) ∧
    Returns (findSymbolRetOffsets d e t name) :=
  ⟨returns_readTable_iff newTable goVersion elfPath e, returns_findRetOffsets_iff d e name,
    returns_findRetOffsetsPie_iff d maxAlloc e t name, returns_findSymbolRetOffsets d e t name⟩

/-- A section that ends with the magic number of Go 1.20, and an absolute symbol. -/
def truncatedElf : ElfFile where
  file := []
  sections :=
    [⟨str ".gopclntab", 0x1000, 0, 4, .ok ⟨[0xf1, 0xff, 0xff, 0xff], []⟩, by
      intro b h
      cases h
      rfl⟩]
  progs := [⟨ptLoad, pfX, 0, 0, 0, 0⟩]
  symbols := [⟨str "crypto/tls.(*Conn).Read", 0xfff1, 0, 0⟩]
  dynamicSymbols := []

/-- A function that ends before it starts. -/
def backwards : SymTab := [⟨str "crypto/tls.(*Conn).Read", 0x2000, 0x2000, 0x1fff⟩]

/-- On these files the first three routines panic: behind the magic number, at the list of sections
and at an allocation. -/
theorem truncated_elf_panics :
    readTable (fun _ _ => some []) (str "go1.20") [] truncatedElf = .error (.fault .indexRange) ∧
    findRetOffsets (.arm64 fun _ => true) truncatedElf (str "crypto/tls.(*Conn).Read") =
      .error (.fault .indexRange) ∧
    findRetOffsetsPie (.arm64 fun _ => true) (2 ^ 48) truncatedElf backwards
      (str "crypto/tls.(*Conn).Read") = .error .makeSlice := by
  refine ⟨?_, ?_, ?_⟩
  · decide +kernel
  · decide +kernel
  · decide +kernel

end ECapture.Probe.GoElf
