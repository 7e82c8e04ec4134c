import ECapture.Probe.GoElf
import Mathlib.Data.List.Pairwise

/-!
# Attach addresses are file offsets

The end of `parserGoElf` (`internal/probe/gotls/config.go`), which stores where the probes of a Go
program go: at two functions and at the RET instructions of a third. A probe is placed at an offset
of the file, `addr - seg.Vaddr + seg.Off` in the segment of the address.

The four routines agree on this only for some layouts: one does not translate addresses, one
translates by the `.text` section and two by the segment.
-/

namespace ECapture.Probe.GoElf
open Library

def goTlsReadFunc : Bytes := str "crypto/tls.(*Conn).Read"
def goTlsWriteFunc : Bytes := str "crypto/tls.(*Conn).writeRecordLocked"
def goTlsMasterSecretFunc : Bytes := str "crypto/tls.(*Config).writeKeyLog"

/-- `GoTlsWriteAddr`, `GoTlsMasterSecretAddr` and `ReadTlsAddrs`. -/
structure Addrs where
  goTlsWriteAddr : UInt64
  goTlsMasterSecretAddr : UInt64
  readTlsAddrs : List Int64
  deriving DecidableEq

def symbolAddressError (name err : Bytes) : Bytes := name ++ str " symbol address error:" ++ err
def findSymbolAddrError (name err : Bytes) : Bytes := name ++ str " find symbol addr error:" ++ err

/-- `parserGoElf` after `ReadTable`: the addresses that it stores when it succeeds. -/
def parserGoElf (d : Decoder) (maxAlloc : Nat) (e : ElfFile) (t : SymTab) (isPieBuildMode : Bool) :
    Outcome Addrs :=
  if isPieBuildMode then
    match findPieSymbolAddr t goTlsWriteFunc with
    | .error err => .ok (.error (symbolAddressError goTlsWriteFunc err))
    | .ok write =>
      match findPieSymbolAddr t goTlsMasterSecretFunc with
      | .error err => .ok (.error (symbolAddressError goTlsMasterSecretFunc err))
      | .ok masterSecret =>
        match findRetOffsetsPie d maxAlloc e t goTlsReadFunc with
        | .error p => .error p
        | .ok (.error err) => .ok (.error err)
        | .ok (.ok reads) => .ok (.ok ⟨write, masterSecret, reads⟩)
  else
    match findSymbolAddr e t goTlsWriteFunc with
    | .error err => .ok (.error (findSymbolAddrError goTlsWriteFunc err))
    | .ok write =>
      match findSymbolAddr e t goTlsMasterSecretFunc with
      | .error err => .ok (.error (findSymbolAddrError goTlsMasterSecretFunc err))
      | .ok masterSecret =>
        match findRetOffsets d e goTlsReadFunc with
        | .error p => .error p
        | .ok (.ok reads) => .ok (.ok ⟨write, masterSecret, reads⟩)
        | .ok (.error _) =>
          match findSymbolRetOffsets d e t goTlsReadFunc with
          | .error p => .error p
          | .ok (.error err) => .ok (.error err)
          | .ok (.ok reads) => .ok (.ok ⟨write, masterSecret, reads⟩)

/-! ## Where a function is -/

/-- The addresses of a function. -/
structure Extent where
  addr : UInt64
  size : UInt64

def Func.extent (f : Func) : Extent := ⟨f.entry, f.endAddr - f.entry⟩

def Symbol.extent (s : Symbol) : Extent := ⟨s.value, s.size⟩

/-- The function lies inside the executable segment. -/
structure Lies (e : ElfFile) (x : Extent) (seg : Prog) : Prop where
  listed : seg ∈ e.progs
  isExec : seg.isExec = true
  start : seg.vaddr.toNat ≤ x.addr.toNat
  pos : 0 < x.size.toNat
  stop : x.addr.toNat + x.size.toNat ≤ seg.vaddr.toNat + seg.memsz.toNat

/-- No address is in both of two executable segments. -/
def Prog.Apart (p q : Prog) : Prop :=
  p.isExec = true → q.isExec = true →
    p.vaddr.toNat + p.memsz.toNat ≤ q.vaddr.toNat ∨ q.vaddr.toNat + q.memsz.toNat ≤ p.vaddr.toNat

instance : Std.Symm Prog.Apart := ⟨fun _ _ apart hq hp => (apart hp hq).symm⟩

/-- The executable segments of an executable: apart from each other in memory, which they do not
leave, and with no more bytes in the file than in memory. -/
structure Layout (e : ElfFile) : Prop where
  fits : ∀ p ∈ e.progs, p.isExec = true → p.vaddr.toNat + p.memsz.toNat < 2 ^ 64
  filesz : ∀ p ∈ e.progs, p.isExec = true → p.filesz.toNat ≤ p.memsz.toNat
  apart : e.progs.Pairwise Prog.Apart

/-- The file offset of an address of the segment. -/
def Prog.fileOffset (seg : Prog) (addr : UInt64) : UInt64 := addr - seg.vaddr + seg.off

/-- The bytes of the function that the segment has in the file. -/
def Prog.code (file : Bytes) (seg : Prog) (x : Extent) : Bytes :=
  (file.drop (seg.off.toNat + (x.addr.toNat - seg.vaddr.toNat))).take x.size.toNat

/-- The offsets of the RET instructions of the function. -/
def RightReads (d : Decoder) (e : ElfFile) (seg : Prog) (x : Extent) (reads : List Int64) : Prop :=
  ∃ rets, decodeInstruction d (seg.code e.file x) = .ok rets ∧
    reads = shifted (seg.fileOffset x.addr) rets

/-! ## The segment of an address -/

theorem contains_iff {p : Prog} (fits : p.vaddr.toNat + p.memsz.toNat < 2 ^ 64) (addr : UInt64) :
    p.contains addr = true ↔
      p.vaddr.toNat ≤ addr.toNat ∧ addr.toNat < p.vaddr.toNat + p.memsz.toNat := by
  rw [Prog.contains, Bool.and_eq_true, decide_eq_true_eq, decide_eq_true_eq,
    UInt64.le_iff_toNat_le, UInt64.lt_iff_toNat_lt, UInt64.toNat_add, Nat.mod_eq_of_lt fits]

variable {e : ElfFile} {x : Extent} {seg : Prog}

/-- A segment with the address of the function is the segment of the function. -/
theorem Layout.unique (layout : Layout e) (lies : Lies e x seg) {p : Prog} (listed : p ∈ e.progs)
    (isExec : p.isExec = true) (here : p.contains x.addr = true) : p = seg := by
  have inside := (contains_iff (layout.fits p listed isExec) x.addr).mp here
  have start := lies.start
  have stop := lies.stop
  have pos := lies.pos
  by_contra other
  have apart := layout.apart.forall listed lies.listed other isExec lies.isExec
  omega

theorem Layout.execProg?_eq (layout : Layout e) (lies : Lies e x seg) :
    e.execProg? x.addr = some seg := by
  have here : seg.contains x.addr = true :=
    (contains_iff (layout.fits seg lies.listed lies.isExec) x.addr).mpr
      ⟨lies.start, by have := lies.pos; have := lies.stop; omega⟩
  cases found : e.execProg? x.addr with
  | none =>
    have none := List.find?_eq_none.mp found seg lies.listed
    simp [lies.isExec, here] at none
  | some p =>
    have both := List.find?_some found
    rw [Bool.and_eq_true] at both
    rw [layout.unique lies (List.mem_of_find?_eq_some found) both.1 both.2]

/-! ## Offsets within a function -/

theorem lt_of_mem_retsFrom {next : Bytes → Except Bytes Inst} {code : Bytes} {i skip : Nat}
    {rets : List Nat} (scanned : retsFrom next i skip code = .ok rets) {r : Nat} (mem : r ∈ rets) :
    r < i + code.length := by
  induction code generalizing i skip rets with
  | nil =>
    cases skip <;> cases scanned <;> cases mem
  | cons b code ih =>
    rw [List.length_cons]
    cases skip with
    | succ skip =>
      have := ih scanned mem
      omega
    | zero =>
      rw [retsFrom] at scanned
      cases decoded : next (b :: code) with
      | error err => simp [decoded, bind, Except.bind] at scanned
      | ok inst =>
        cases later : retsFrom next (i + 1) (inst.len - 1) code with
        | error err => simp [decoded, later, bind, Except.bind] at scanned
        | ok rest =>
          obtain rfl : (if inst.isRet then i :: rest else rest) = rets := by
            simpa [decoded, later, bind, Except.bind, pure, Except.pure] using scanned
          have tail : r ∈ rest → r < i + (code.length + 1) := fun mem => by
            have := ih later mem
            omega
          split at mem
          · rcases List.mem_cons.mp mem with rfl | mem
            · omega
            · exact tail mem
          · exact tail mem

theorem lt_of_mem_decodeInstruction {d : Decoder} {code : Bytes} {rets : List Nat}
    (decoded : decodeInstruction d code = .ok rets) {r : Nat} (mem : r ∈ rets) :
    r < code.length := by
  cases d with
  | amd64 decode => simpa using lt_of_mem_retsFrom decoded mem
  | arm64 isRet => simpa using lt_of_mem_retsFrom decoded mem

theorem int64_ofNat_inj {a b : Nat} (ha : a < 2 ^ 64) (hb : b < 2 ^ 64)
    (h : Int64.ofNat a = Int64.ofNat b) : a = b := by
  have bits := congrArg Int64.toBitVec h
  simp only [Int64.toBitVec_ofNat'] at bits
  have values := congrArg BitVec.toNat bits
  simp only [BitVec.toNat_ofNat] at values
  omega

/-- Offsets within a function stay apart when they are added to an address. -/
theorem shifted_inj {address : UInt64} {as bs : List Nat} (small : ∀ a ∈ as, a < 2 ^ 64)
    (small' : ∀ b ∈ bs, b < 2 ^ 64) (h : shifted address as = shifted address bs) : as = bs := by
  induction as generalizing bs with
  | nil =>
    cases bs with
    | nil => rfl
    | cons b bs => simp [shifted] at h
  | cons a as ih =>
    cases bs with
    | nil => simp [shifted] at h
    | cons b bs =>
      simp only [shifted, List.map_cons, List.cons.injEq] at h
      obtain ⟨head, tail⟩ := h
      rw [List.forall_mem_cons] at small small'
      have same : Int64.ofNat a = Int64.ofNat b := by grind
      rw [int64_ofNat_inj small.1 small'.1 same, ih small.2 small'.2 tail]

theorem shifted_base_iff {address address' : UInt64} {rets : List Nat} :
    shifted address rets = shifted address' rets ↔ rets = [] ∨ address = address' := by
  cases rets with
  | nil => simp [shifted]
  | cons r rets =>
    constructor
    · intro h
      simp only [shifted, List.map_cons, List.cons.injEq] at h
      have same : address.toInt64 = address'.toInt64 := by grind
      refine .inr ?_
      rw [← UInt64.toUInt64_toInt64 address, same, UInt64.toUInt64_toInt64]
    · rintro (nil | rfl)
      · cases nil
      · rfl

theorem length_code (file : Bytes) : (seg.code file x).length < 2 ^ 64 := by
  have := x.size.toNat_lt
  rw [Prog.code, List.length_take]
  omega

/-- Offsets that have been shifted by the file offset are right when the bytes that they were found
in decode as those of the segment. -/
theorem rightReads_iff (e : ElfFile) (seg : Prog) (x : Extent) {d : Decoder} {code : Bytes}
    {rets : List Nat} (small : code.length < 2 ^ 64)
    (decoded : decodeInstruction d code = .ok rets) :
    RightReads d e seg x (shifted (seg.fileOffset x.addr) rets) ↔
      decodeInstruction d (seg.code e.file x) = decodeInstruction d code := by
  have bound : ∀ r ∈ rets, r < 2 ^ 64 := fun r mem =>
    Nat.lt_trans (lt_of_mem_decodeInstruction decoded mem) small
  rw [decoded]
  constructor
  · rintro ⟨rets', found, eq⟩
    have bound' : ∀ r ∈ rets', r < 2 ^ 64 := fun r mem =>
      Nat.lt_trans (lt_of_mem_decodeInstruction found mem) (length_code e.file)
    rw [found, shifted_inj bound bound' eq]
  · intro found
    exact ⟨rets, found, rfl⟩

/-! ## What the routines give -/

theorem readAt_ok {file : Bytes} {p : Prog} {n : Nat} {distance : UInt64} {data : Bytes}
    (read : p.readAt file n distance.toInt64 = .ok data) :
    distance.toNat < p.filesz.toNat ∧
      data = (file.drop (p.off.toNat + distance.toNat)).take n := by
  rw [Prog.readAt] at read
  dsimp only at read
  split at read
  · cases read
  · rename_i inside
    obtain ⟨nonneg, inside⟩ := not_or.mp inside
    have unsigned : distance.toInt64.toInt.toNat = distance.toNat := by
      have same := Int64.toNat_toUInt64_of_le (Int64.not_lt.mp nonneg)
      rw [UInt64.toUInt64_toInt64] at same
      exact same.symm
    rw [unsigned] at inside read
    split at read
    · cases read
    · cases read
      exact ⟨by omega, rfl⟩

/-- The first executable segment, when it can be read at the address of the function, is that of the
function, and gives its bytes. -/
theorem findRetOffsetsPie_ok {d : Decoder} {maxAlloc : Nat} {t : SymTab} {lfunc : Bytes} {f : Func}
    {reads : List Int64} (layout : Layout e) (lies : Lies e f.extent seg) (plain : f.value = f.entry)
    (known : t.lookupFunc lfunc = some f)
    (found : findRetOffsetsPie d maxAlloc e t lfunc = .ok (.ok reads)) :
    ∃ rets, decodeInstruction d (seg.code e.file f.extent) = .ok rets ∧
      reads = shifted f.entry rets := by
  rw [findRetOffsetsPie, known] at found
  dsimp only at found
  cases first : e.progs.find? Prog.isExec with
  | none => simp [first] at found
  | some prog =>
    simp only [first, plain] at found
    split at found
    · cases found
    · cases data : prog.readAt e.file (f.endAddr - f.entry).toNat (f.entry - prog.vaddr).toInt64 with
      | error err =>
        rw [data] at found
        cases found
      | ok code =>
        rw [data] at found
        dsimp only at found
        cases decoded : decodeInstruction d code with
        | error err =>
          rw [decoded] at found
          cases found
        | ok rets =>
          rw [decoded] at found
          cases found
          obtain ⟨near, rfl⟩ := readAt_ok data
          have listed := List.mem_of_find?_eq_some first
          have isExec := List.find?_some first
          have fits := layout.fits prog listed isExec
          have filesz := layout.filesz prog listed isExec
          have below : prog.vaddr.toNat ≤ f.entry.toNat := by
            by_contra above
            rw [UInt64.toNat_sub] at near
            have := f.entry.toNat_lt
            have := prog.vaddr.toNat_lt
            omega
          have distance : (f.entry - prog.vaddr).toNat = f.entry.toNat - prog.vaddr.toNat :=
            UInt64.toNat_sub_of_le _ _ (UInt64.le_iff_toNat_le.mpr below)
          have here : prog.contains f.entry = true :=
            (contains_iff fits f.entry).mpr ⟨below, by omega⟩
          obtain rfl := layout.unique lies listed isExec here
          refine ⟨rets, ?_, rfl⟩
          rw [Prog.code, ← decoded, distance]
          rfl

/-- The first symbol of that name. -/
def ElfFile.symbol? (e : ElfFile) (name : Bytes) : Option Symbol :=
  (e.symbols ++ e.dynamicSymbols).find? fun s => s.name = name

/-- The bytes that the section of a symbol has for it. -/
def ElfFile.symbolCode (e : ElfFile) (s : Symbol) : Option Bytes := do
  let sec ← e.sections[s.sectionIndex.toNat]?
  let data ← sec.data.toOption
  (data.slice (s.value - sec.addr) (s.value - sec.addr + s.size)).toOption

/-- The bytes that `.text` has for a function of the table. -/
def ElfFile.textCode (e : ElfFile) (f : Func) : Option Bytes := do
  let textSect ← e.section? (str ".text")
  let data ← textSect.data.toOption
  (data.slice (f.entry - textSect.addr) (f.endAddr - textSect.addr)).toOption

def HasRet (d : Decoder) (code : Bytes) : Prop :=
  ∃ rets, decodeInstruction d code = .ok rets ∧ rets ≠ []

/-- The extent of a function and the bytes that a section has for it: those of its symbol, when
there is a RET in them, and else those of the function table. -/
inductive SectionCode (d : Decoder) (e : ElfFile) (t : SymTab) (name : Bytes) :
    Extent → Bytes → Prop where
  | symbol {s : Symbol} {code : Bytes} : e.symbol? name = some s → e.symbolCode s = some code →
      HasRet d code → SectionCode d e t name s.extent code
  | func {f : Func} {code : Bytes} :
      (∀ s code, e.symbol? name = some s → e.symbolCode s = some code → ¬ HasRet d code) →
      t.lookupFunc name = some f → e.textCode f = some code → SectionCode d e t name f.extent code

theorem toOption_eq_some {ε α : Type} {r : Except ε α} {a : α} (h : r.toOption = some a) :
    r = .ok a := by
  cases r with
  | error err => cases h
  | ok b => simpa [Except.toOption] using h

theorem length_slice {b : Buffer} {start stop : UInt64} {code : Bytes}
    (h : b.slice start stop = .ok code) : code.length < 2 ^ 64 := by
  rw [Buffer.slice] at h
  split at h
  · cases h
    have := stop.toNat_lt
    rw [List.length_drop, List.length_take]
    omega
  · cases h

section
variable {d : Decoder} {t : SymTab} {name : Bytes}

theorem symbolCode_eq_some {s : Symbol} {code : Bytes} (h : e.symbolCode s = some code) :
    ∃ sec data, e.sections[s.sectionIndex.toNat]? = some sec ∧ sec.data = .ok data ∧
      data.slice (s.value - sec.addr) (s.value - sec.addr + s.size) = .ok code := by
  simp only [ElfFile.symbolCode, Option.bind_eq_bind, Option.bind_eq_some_iff] at h
  obtain ⟨sec, listed, data, read, sliced⟩ := h
  exact ⟨sec, data, listed, toOption_eq_some read, toOption_eq_some sliced⟩

/-- The address that `findRetOffsets` adds to. -/
def ElfFile.symbolBase (e : ElfFile) (s : Symbol) : UInt64 :=
  match e.execProg? s.value with
  | some prog => prog.fileOffset s.value
  | none => s.value

/-- By the symbol: the segment gives the address, and the section the offsets. -/
theorem findRetOffsets_eq {s : Symbol} {code : Bytes} {rets : List Nat}
    (known : e.symbol? name = some s) (here : e.symbolCode s = some code)
    (decoded : decodeInstruction d code = .ok rets) (some : rets ≠ []) :
    findRetOffsets d e name = .ok (.ok (shifted (e.symbolBase s) rets)) := by
  obtain ⟨sec, data, listed, read, sliced⟩ := symbolCode_eq_some here
  have nonempty : e.symbols ++ e.dynamicSymbols ≠ [] := by
    intro empty
    rw [ElfFile.symbol?, empty] at known
    cases known
  rw [ElfFile.symbol?] at known
  simp only [findRetOffsets, if_neg nonempty, known, listed, read, sliced, decoded,
    Except.toOption, Option.getD_some, if_neg some]
  rfl

/-- Without a RET in the bytes of a symbol the symbol tables give nothing. -/
theorem findRetOffsets_ne
    (none : ∀ s code, e.symbol? name = some s → e.symbolCode s = some code → ¬ HasRet d code)
    (reads : List Int64) : findRetOffsets d e name ≠ .ok (.ok reads) := by
  intro found
  rw [findRetOffsets] at found
  dsimp only at found
  split at found
  · cases found
  · split at found
    · cases found
    · rename_i s known
      split at found
      · cases found
      · rename_i sec listed
        split at found
        · cases found
        · rename_i data read
          split at found
          · cases found
          · rename_i code sliced
            split at found
            · cases found
            · rename_i some
              have here : e.symbolCode s = .some code := by
                simp [ElfFile.symbolCode, listed, read, sliced, Except.toOption]
              apply none s code known here
              cases decoded : decodeInstruction d code with
              | error err => simp [decoded, Except.toOption] at some
              | ok rets => exact ⟨rets, decoded, by simpa [decoded, Except.toOption] using some⟩

/-- By the function table: the same, with the bytes of `.text`. -/
theorem findSymbolRetOffsets_ok {f : Func} {code : Bytes} {reads : List Int64} (layout : Layout e)
    (lies : Lies e f.extent seg) (known : t.lookupFunc name = some f)
    (here : e.textCode f = some code) (found : findSymbolRetOffsets d e t name = .ok (.ok reads)) :
    ∃ rets, decodeInstruction d code = .ok rets ∧ reads = shifted (seg.fileOffset f.entry) rets := by
  simp only [ElfFile.textCode, Option.bind_eq_bind, Option.bind_eq_some_iff] at here
  obtain ⟨textSect, text, data, read, sliced⟩ := here
  have prog : e.execProg? f.entry = _ := layout.execProg?_eq lies
  rw [findSymbolRetOffsets, known] at found
  simp only [text, toOption_eq_some read, toOption_eq_some sliced, prog] at found
  split at found
  · cases found
  · cases decoded : decodeInstruction d code with
    | error err =>
      rw [decoded] at found
      cases found
    | ok rets =>
      rw [decoded] at found
      cases found
      exact ⟨rets, rfl, rfl⟩

theorem lookupFunc_value {f : Func} (plain : ∀ f ∈ t, f.value = f.entry)
    (known : t.lookupFunc name = some f) : f.value = f.entry :=
  plain f (List.mem_of_find?_eq_some known)

end

/-! ## When the addresses are file offsets -/

/-- The addresses are the file offsets of the two functions and of the RET instructions of the
third. -/
structure FileOffsets (d : Decoder) (e : ElfFile) (segW segM segR : Prog) (w m r : Extent)
    (a : Addrs) : Prop where
  write : a.goTlsWriteAddr = segW.fileOffset w.addr
  masterSecret : a.goTlsMasterSecretAddr = segM.fileOffset m.addr
  reads : RightReads d e segR r a.readTlsAddrs

section
variable {d : Decoder} {maxAlloc : Nat} {t : SymTab} {write masterSecret : Func}
  {segW segM segR : Prog} {a : Addrs}

theorem untranslated_iff (seg : Prog) (addr : UInt64) :
    addr = seg.fileOffset addr ↔ seg.vaddr = seg.off := by
  unfold Prog.fileOffset
  constructor <;> intro h <;> grind

theorem bySection_iff (seg : Prog) (text : Section) (addr : UInt64) :
    addr - text.addr + text.offset = seg.fileOffset addr ↔
      text.addr - text.offset = seg.vaddr - seg.off := by
  unfold Prog.fileOffset
  constructor <;> intro h <;> grind

/-- On success the three functions are in the table, and the addresses of two of them are stored. -/
theorem parserGoElf_pie {d : Decoder} (parsed : parserGoElf d maxAlloc e t true = .ok (.ok a)) :
    ∃ write masterSecret read reads, t.lookupFunc goTlsWriteFunc = some write ∧
      t.lookupFunc goTlsMasterSecretFunc = some masterSecret ∧
      t.lookupFunc goTlsReadFunc = some read ∧
      findRetOffsetsPie d maxAlloc e t goTlsReadFunc = .ok (.ok reads) ∧
      a = ⟨write.value, masterSecret.value, reads⟩ := by
  rw [parserGoElf, if_pos rfl] at parsed
  cases knownW : t.lookupFunc goTlsWriteFunc with
  | none => simp [findPieSymbolAddr, knownW] at parsed
  | some write =>
    cases knownM : t.lookupFunc goTlsMasterSecretFunc with
    | none => simp [findPieSymbolAddr, knownW, knownM] at parsed
    | some masterSecret =>
      simp only [findPieSymbolAddr, knownW, knownM] at parsed
      split at parsed
      · cases parsed
      · cases parsed
      · rename_i reads found
        cases parsed
        cases knownR : t.lookupFunc goTlsReadFunc with
        | none => simp [findRetOffsetsPie, knownR] at found
        | some read => exact ⟨write, masterSecret, read, reads, rfl, rfl, rfl, found, rfl⟩

theorem fileOffsets_pie_iff {read : Func} {reads : List Int64} (layout : Layout e)
    (plain : ∀ f ∈ t, f.value = f.entry) (knownW : t.lookupFunc goTlsWriteFunc = some write)
    (knownM : t.lookupFunc goTlsMasterSecretFunc = some masterSecret)
    (knownR : t.lookupFunc goTlsReadFunc = some read) (liesR : Lies e read.extent segR)
    (found : findRetOffsetsPie d maxAlloc e t goTlsReadFunc = .ok (.ok reads)) :
    FileOffsets d e segW segM segR write.extent masterSecret.extent read.extent
        ⟨write.value, masterSecret.value, reads⟩ ↔
      segW.vaddr = segW.off ∧ segM.vaddr = segM.off ∧ (segR.vaddr = segR.off ∨
        decodeInstruction d (segR.code e.file read.extent) = .ok []) := by
  obtain ⟨rets, decoded, rfl⟩ :=
    findRetOffsetsPie_ok layout liesR (lookupFunc_value plain knownR) knownR found
  rw [lookupFunc_value plain knownW, lookupFunc_value plain knownM]
  have reads : RightReads d e segR read.extent (shifted read.entry rets) ↔
      segR.vaddr = segR.off ∨ decodeInstruction d (segR.code e.file read.extent) = .ok [] := by
    rw [RightReads, decoded]
    simp only [Except.ok.injEq, exists_eq_left']
    rw [shifted_base_iff, or_comm]
    exact or_congr (untranslated_iff segR read.entry) Iff.rfl
  constructor
  · intro h
    exact ⟨(untranslated_iff segW _).mp h.write, (untranslated_iff segM _).mp h.masterSecret,
      reads.mp h.reads⟩
  · rintro ⟨hw, hm, hr⟩
    exact ⟨(untranslated_iff segW _).mpr hw, (untranslated_iff segM _).mpr hm, reads.mpr hr⟩

theorem length_sectionCode {name : Bytes} {code : Bytes}
    (taken : SectionCode d e t name x code) : code.length < 2 ^ 64 := by
  cases taken with
  | symbol known here _ =>
    obtain ⟨sec, data, -, -, sliced⟩ := symbolCode_eq_some here
    exact length_slice sliced
  | func _ known here =>
    simp only [ElfFile.textCode, Option.bind_eq_bind, Option.bind_eq_some_iff] at here
    obtain ⟨textSect, -, data, -, sliced⟩ := here
    exact length_slice (toOption_eq_some sliced)

/-- What `findSymbolRetOffsets` has looked at when it succeeds. -/
theorem textCode_of_ok {name : Bytes} {reads : List Int64}
    (found : findSymbolRetOffsets d e t name = .ok (.ok reads)) :
    ∃ f code, t.lookupFunc name = some f ∧ e.textCode f = some code := by
  rw [findSymbolRetOffsets] at found
  split at found
  · cases found
  · rename_i f known
    split at found
    · cases found
    · rename_i textSect text
      split at found
      · cases found
      · rename_i data read
        dsimp only at found
        split at found
        · cases found
        · split at found
          · cases found
          · rename_i code sliced
            exact ⟨f, code, known, by
              simp [ElfFile.textCode, text, read, sliced, Except.toOption]⟩

/-- On success two functions and `.text` are known, and the bytes that a section has for the third
have been decoded. -/
theorem parserGoElf_sections {d : Decoder} (layout : Layout e)
    (parsed : parserGoElf d maxAlloc e t false = .ok (.ok a)) :
    ∃ write masterSecret text r code, t.lookupFunc goTlsWriteFunc = some write ∧
      t.lookupFunc goTlsMasterSecretFunc = some masterSecret ∧
      e.section? (str ".text") = some text ∧ SectionCode d e t goTlsReadFunc r code ∧
      a.goTlsWriteAddr = write.entry - text.addr + text.offset ∧
      a.goTlsMasterSecretAddr = masterSecret.entry - text.addr + text.offset ∧
      ∀ segR, Lies e r segR → ∃ rets, decodeInstruction d code = .ok rets ∧
        a.readTlsAddrs = shifted (segR.fileOffset r.addr) rets := by
  rw [parserGoElf, if_neg (by decide)] at parsed
  cases knownW : t.lookupFunc goTlsWriteFunc with
  | none => simp [findSymbolAddr, knownW] at parsed
  | some write =>
    cases text : e.section? (str ".text") with
    | none => simp [findSymbolAddr, knownW, text] at parsed
    | some textSect =>
      cases knownM : t.lookupFunc goTlsMasterSecretFunc with
      | none => simp [findSymbolAddr, knownW, text, knownM] at parsed
      | some masterSecret =>
        simp only [findSymbolAddr, knownW, knownM, text] at parsed
        by_cases bySymbol : ∃ s code, e.symbol? goTlsReadFunc = some s ∧
            e.symbolCode s = some code ∧ HasRet d code
        · obtain ⟨s, code, known, here, ret⟩ := bySymbol
          obtain ⟨rets, decoded, some⟩ := ret
          rw [findRetOffsets_eq known here decoded some] at parsed
          cases parsed
          refine ⟨write, masterSecret, textSect, s.extent, code, rfl, rfl, rfl,
            .symbol known here ⟨rets, decoded, some⟩, rfl, rfl, ?_⟩
          intro segR lies
          have prog : e.execProg? s.value = _ := layout.execProg?_eq lies
          exact ⟨rets, decoded, by rw [ElfFile.symbolBase, prog]; rfl⟩
        · have none : ∀ s code, e.symbol? goTlsReadFunc = some s → e.symbolCode s = some code →
              ¬ HasRet d code :=
            fun s code known here ret => bySymbol ⟨s, code, known, here, ret⟩
          split at parsed
          · cases parsed
          · rename_i reads found
            exact absurd found (findRetOffsets_ne none reads)
          · split at parsed
            · cases parsed
            · cases parsed
            · rename_i reads found
              cases parsed
              obtain ⟨f, code, known, here⟩ := textCode_of_ok found
              exact ⟨write, masterSecret, textSect, f.extent, code, rfl, rfl, rfl,
                .func none known here, rfl, rfl,
                fun segR lies => findSymbolRetOffsets_ok layout lies known here found⟩

/-- The stored addresses are file offsets exactly when the executable is laid out so. For a
position-independent executable, whose addresses are not translated: they are offsets already. For
others: `.text` translates as the segments of the two functions do, and the segment of the third has
its RET instructions where the section has them. -/
theorem attach_addresses_iff (d : Decoder) (maxAlloc : Nat) (e : ElfFile) (t : SymTab)
    (layout : Layout e) (plain : ∀ f ∈ t, f.value = f.entry) (a : Addrs) :
    (parserGoElf d maxAlloc e t true = .ok (.ok a) →
      ∃ write masterSecret read, t.lookupFunc goTlsWriteFunc = some write ∧
        t.lookupFunc goTlsMasterSecretFunc = some masterSecret ∧
        t.lookupFunc goTlsReadFunc = some read ∧
        ∀ segW segM segR, Lies e write.extent segW → Lies e masterSecret.extent segM →
          Lies e read.extent segR →
          (FileOffsets d e segW segM segR write.extent masterSecret.extent read.extent a ↔
            segW.vaddr = segW.off ∧ segM.vaddr = segM.off ∧ (segR.vaddr = segR.off ∨
              decodeInstruction d (segR.code e.file read.extent) = .ok []))) ∧
    (parserGoElf d maxAlloc e t false = .ok (.ok a) →
      ∃ write masterSecret text r code, t.lookupFunc goTlsWriteFunc = some write ∧
        t.lookupFunc goTlsMasterSecretFunc = some masterSecret ∧
        e.section? (str ".text") = some text ∧ SectionCode d e t goTlsReadFunc r code ∧
        ∀ segW segM segR, Lies e write.extent segW → Lies e masterSecret.extent segM →
          Lies e r segR →
          (FileOffsets d e segW segM segR write.extent masterSecret.extent r a ↔
            text.addr - text.offset = segW.vaddr - segW.off ∧
            text.addr - text.offset = segM.vaddr - segM.off ∧
            decodeInstruction d (segR.code e.file r) = decodeInstruction d code)) := by
  refine ⟨?_, ?_⟩
  · intro parsed
    obtain ⟨write, masterSecret, read, reads, knownW, knownM, knownR, found, rfl⟩ :=
      parserGoElf_pie parsed
    refine ⟨write, masterSecret, read, knownW, knownM, knownR, ?_⟩
    intro segW segM segR _ _ liesR
    exact fileOffsets_pie_iff layout plain knownW knownM knownR liesR found
  · intro parsed
    obtain ⟨write, masterSecret, text, r, code, knownW, knownM, textSect, taken, addrW, addrM,
      stored⟩ := parserGoElf_sections layout parsed
    refine ⟨write, masterSecret, text, r, code, knownW, knownM, textSect, taken, ?_⟩
    intro segW segM segR _ _ liesR
    obtain ⟨rets, decoded, addrR⟩ := stored segR liesR
    have reads := rightReads_iff e segR r (length_sectionCode taken) decoded
    rw [← addrR] at reads
    constructor
    · intro h
      exact ⟨(bySection_iff segW text _).mp (addrW.symm.trans h.write),
        (bySection_iff segM text _).mp (addrM.symm.trans h.masterSecret), reads.mp h.reads⟩
    · rintro ⟨hw, hm, hr⟩
      exact ⟨addrW.trans ((bySection_iff segW text _).mpr hw),
        addrM.trans ((bySection_iff segM text _).mpr hm), reads.mpr hr⟩

end

/-! ## A layout with the segment a page further in memory -/

/-- RET of arm64. -/
def retDecoder : Decoder := .arm64 fun code => code.take 4 = [0xc0, 0x03, 0x5f, 0xd6]

def pageFurther : Prog := ⟨ptLoad, pfX, 0x10, 0x2010, 0x10, 0x10⟩

/-- Three functions, the last of which ends with a RET, from offset 16 on. -/
def pageFurtherElf : ElfFile where
  file := List.replicate 28 0 ++ [0xc0, 0x03, 0x5f, 0xd6]
  sections :=
    [⟨str ".text", 0x2010, 0x10, 16,
      .ok ⟨List.replicate 12 0 ++ [0xc0, 0x03, 0x5f, 0xd6], []⟩, by
        intro b h
        cases h
        rfl⟩]
  progs := [⟨ptLoad, 0, 0, 0, 0x10, 0x10⟩, pageFurther]
  symbols := []
  dynamicSymbols := []

def writeFunc : Func := ⟨goTlsWriteFunc, 0x2010, 0x2010, 0x2014⟩
def masterSecretFunc : Func := ⟨goTlsMasterSecretFunc, 0x2014, 0x2014, 0x2018⟩
def readFunc : Func := ⟨goTlsReadFunc, 0x2018, 0x2018, 0x2020⟩

def threeFuncs : SymTab := [writeFunc, masterSecretFunc, readFunc]

theorem layout_pageFurtherElf : Layout pageFurtherElf := by
  constructor
  · decide
  · decide
  · refine .cons ?_ (List.pairwise_singleton _ _)
    intro q _ hp
    exact absurd hp (by decide)

theorem lies_pageFurther {x : Extent} (start : 0x2010 ≤ x.addr.toNat) (pos : 0 < x.size.toNat)
    (stop : x.addr.toNat + x.size.toNat ≤ 0x2020) : Lies pageFurtherElf x pageFurther :=
  ⟨.tail _ (.head _), rfl, start, pos, stop⟩

/-- As a position-independent executable: the addresses in memory are stored. -/
theorem pie_addresses_untranslated :
    Layout pageFurtherElf ∧ Lies pageFurtherElf writeFunc.extent pageFurther ∧
    Lies pageFurtherElf masterSecretFunc.extent pageFurther ∧
    Lies pageFurtherElf readFunc.extent pageFurther ∧
    parserGoElf retDecoder (2 ^ 48) pageFurtherElf threeFuncs true =
      .ok (.ok ⟨0x2010, 0x2014, [0x201c]⟩) ∧
    ¬ FileOffsets retDecoder pageFurtherElf pageFurther pageFurther pageFurther writeFunc.extent
      masterSecretFunc.extent readFunc.extent ⟨0x2010, 0x2014, [0x201c]⟩ := by
  refine ⟨layout_pageFurtherElf, lies_pageFurther (by decide) (by decide) (by decide),
    lies_pageFurther (by decide) (by decide) (by decide),
    lies_pageFurther (by decide) (by decide) (by decide), by decide +kernel, ?_⟩
  intro h
  exact absurd h.write (by decide)

/-- As another executable: file offsets. -/
theorem attach_addresses_by_text :
    parserGoElf retDecoder (2 ^ 48) pageFurtherElf threeFuncs false =
      .ok (.ok ⟨0x10, 0x14, [0x1c]⟩) ∧
    FileOffsets retDecoder pageFurtherElf pageFurther pageFurther pageFurther writeFunc.extent
      masterSecretFunc.extent readFunc.extent ⟨0x10, 0x14, [0x1c]⟩ := by
  have parsed : parserGoElf retDecoder (2 ^ 48) pageFurtherElf threeFuncs false =
      .ok (.ok ⟨0x10, 0x14, [0x1c]⟩) := by
    decide +kernel
  refine ⟨parsed, ?_⟩
  obtain ⟨write, masterSecret, text, r, code, knownW, knownM, textSect, taken, offsets⟩ :=
    (attach_addresses_iff retDecoder (2 ^ 48) pageFurtherElf threeFuncs layout_pageFurtherElf
      (by decide) _).2 parsed
  obtain rfl : writeFunc = write := Option.some.inj knownW
  obtain rfl : masterSecretFunc = masterSecret := Option.some.inj knownM
  have addr : text.addr - text.offset = 0x2000 := by
    have values := congrArg (Option.map fun s => s.addr - s.offset) textSect
    exact (Option.some.inj values).symm
  cases taken with
  | symbol known _ _ => cases known
  | func _ known here =>
    obtain rfl : readFunc = _ := Option.some.inj known
    obtain rfl : [0, 0, 0, 0, 0xc0, 0x03, 0x5f, 0xd6] = code := Option.some.inj here
    rw [addr] at offsets
    exact (offsets pageFurther pageFurther pageFurther
      (lies_pageFurther (by decide) (by decide) (by decide))
      (lies_pageFurther (by decide) (by decide) (by decide))
      (lies_pageFurther (by decide) (by decide) (by decide))).mpr ⟨rfl, rfl, rfl⟩

end ECapture.Probe.GoElf
