import Devirt.Text.Cut
import Devirt.Attack.Devirtualization
import Devirt.Attack.Output
import Devirt.Attack.Redundancy

/-! Logs that end too early, as those of a tracer that was stopped. Wherever a log is cut, the
first replay fails, or computes the function of the instructions that are all there, or
executes one more with as many of its bytes as are left. -/
namespace Devirt.Attack
open Tracer Concolic
open Python (PyError hexByte)

variable {T : Triton} {M : Machine}

/-- What is left of a hexadecimal column is no greater. -/
theorem readUnsigned_cut {value n : Nat} {short : Text} (cut : short <+: hexField false value)
    (read : readUnsigned 16 short = .ok n) : n ≤ value := by
  rcases List.prefix_cons_iff.mp cut with rfl | ⟨_, rfl, marked⟩
  · cases read
  rcases List.prefix_cons_iff.mp marked with rfl | ⟨digits, rfl, numeral⟩
  · cases read
    exact Nat.zero_le value
  by_cases empty : digits = []
  · subst digits
    cases read
  have plain : ∀ char ∈ digits, Python.isSpace char = false ∧
      char ∉ ['_', '-', '+', ':', '\n', '\r', 'x', 'X', ' '] := fun char member =>
    Python.write_plain false value (by decide) (by decide) char (numeral.subset member)
  have solid : ∀ char ∈ '0' :: 'x' :: digits, Python.isSpace char = false := by
    rw [List.forall_mem_cons, List.forall_mem_cons]
    exact ⟨rfl, rfl, fun char member => (plain char member).1⟩
  obtain ⟨v, reads, below⟩ :=
    Numeral.accumulate_cut (by decide) (Numeral.accumulate_write false value (by decide) (by decide)) numeral
  have bare : '_' ∉ digits := fun member => absurd (plain '_' member).2 (by decide)
  have hexadecimal := Python.digits_of_accumulate true empty bare reads false
  have stripped := Python.strip_of_ends [] (by simp) solid (by simp)
  rw [List.append_nil] at stripped
  have whole : readUnsigned 16 ('0' :: 'x' :: digits) = .ok v := by
    have signed : Python.signedNumeral 16 ('0' :: 'x' :: digits) = some (v : Int) :=
      congrArg (Option.map Int.ofNat) hexadecimal
    rw [readUnsigned, Python.int, stripped, signed]
    exact Python.unsigned_natCast v
  cases whole.symm.trans read
  exact below

/-- What is left of an opcode column is the bytes in front, if it can be read. -/
theorem fromhex_cut {opcode bytes : List (BitVec 8)} {short : Text} (cut : short <+: opcode.flatMap (hexByte true))
    (read : Python.fromhex short = .ok bytes) : ∃ j, j ≤ opcode.length ∧ bytes = opcode.take j := by
  induction opcode generalizing short bytes with
  | nil =>
    rw [List.prefix_nil.mp cut] at read
    cases read
    exact ⟨0, le_rfl, rfl⟩
  | cons byte rest ih =>
    have half : ∀ digit : Fin 16, Outcome.isOk (Python.fromhex [Numeral.digitChar true digit]) = false := by decide
    rcases Text.cut_append cut with inside | ⟨later, rfl, onwards⟩
    · rcases List.prefix_cons_iff.mp inside with rfl | ⟨_, rfl, low⟩
      · cases read
        exact ⟨0, Nat.zero_le _, rfl⟩
      rcases List.prefix_cons_iff.mp low with rfl | ⟨short, rfl, none⟩
      · have bound := byte.isLt
        have fails := half ⟨byte.toNat / 16, by omega⟩
        rw [read] at fails
        cases fails
      · rw [List.prefix_nil.mp none] at read
        cases (Python.fromhex_hexByte true byte []).symm.trans read
        exact ⟨1, Nat.le_add_left 1 _, rfl⟩
    · rw [Python.fromhex_hexByte] at read
      cases tail : Python.fromhex later with
      | error e =>
        rw [tail] at read
        cases read
      | ok others =>
        rw [tail] at read
        cases read
        obtain ⟨j, bound, rfl⟩ := ih onwards tail
        exact ⟨j + 1, Nat.succ_le_succ bound, rfl⟩

/-- A line that lost its end splits into whole columns and what is left of one. -/
theorem split_cut (first : List Text) (last : Text) {cut : Text} (closed : Closed (first ++ [last ++ ['\n']]))
    (torn : cut <+: line (first ++ [last ++ ['\n']])) (shorter : cut ≠ line (first ++ [last ++ ['\n']])) :
    ∃ whole field rest short, first ++ [last] = whole ++ field :: rest ∧ Python.split ':' cut = whole ++ [short] ∧
      short <+: field := by
  obtain ⟨first', last', same, plain⟩ := closed
  obtain ⟨rfl, ends⟩ := List.append_inj' same rfl
  obtain rfl : last = last' := List.append_cancel_right (List.singleton_injective ends)
  rw [line_newline] at torn shorter
  rcases List.prefix_concat_iff.mp torn with whole | torn
  · exact absurd whole shorter
  obtain ⟨whole, field, rest, short, fields, rfl, inside⟩ := Text.cut_fields (by simp) torn
  refine ⟨whole, field, rest, short, fields, ?_, inside⟩
  apply Python.split_fields ':' _ (by simp)
  intro column member separator
  rw [List.mem_append, List.mem_singleton] at member
  rw [fields] at plain
  rcases member with member | rfl
  · exact plain column (List.mem_append_left _ member) ':' separator (by simp)
  · exact plain field (by simp) ':' (inside.subset separator) (by simp)

variable (M) in
/-- The record can be applied where RAX is the one of a state, and leaves RAX alone. -/
def Spares (s : M.State) : Dispatch → Prop
  | .syncMemory addr size value => addr < 2 ^ 64 ∧ AccessSize size ∧ value < 256 ^ size
  | .syncReg values => ∀ column ∈ (mapping.map Prod.fst).zip values,
      column.2 < 2 ^ 64 ∧ (column.1 = .rax → column.2 = M.cell s (.gpr .rax))
  | .instruction _ => False

theorem decodeLine_short {cut kind : Text} {columns : List Text} (fields : Python.split ':' cut = kind :: columns)
    (few : columns.length < 3) (other : kind ≠ ['r']) {d : Option Dispatch} (decoded : decodeLine cut = .ok d) :
    d = none := by
  rw [decodeLine, fields] at decoded
  split at decoded
  · rename_i same
    cases same
    simp at few
  · rename_i same
    cases same
    simp at few
  · rename_i same
    cases same
    exact absurd rfl other
  · split at decoded
    · cases decoded
    · cases decoded
      rfl
  · rename_i same
    cases same

/-- What is left of a memory or instruction line means nothing until its last column begins. -/
theorem columns_cut {kind addr size last cut : Text} (known : kind = ['m', 'r'] ∨ kind = ['i'])
    (closed : Closed [kind, addr, size, last ++ ['\n']])
    (torn : cut <+: line [kind, addr, size, last ++ ['\n']])
    (shorter : cut ≠ line [kind, addr, size, last ++ ['\n']]) {d : Option Dispatch}
    (decoded : decodeLine cut = .ok d) :
    d = none ∨ ∃ short, Python.split ':' cut = [kind, addr, size, short] ∧ short <+: last := by
  obtain ⟨whole, field, rest, short, columns, fields, inside⟩ :=
    split_cut [kind, addr, size] last closed torn shorter
  have other : ∀ short, short <+: kind → short ≠ ['r'] := by
    rintro _ begins rfl
    rcases known with rfl | rfl <;> simp at begins
  rcases whole with _ | ⟨first, whole⟩
  · obtain ⟨rfl, -⟩ := List.cons.inj columns
    exact Or.inl (decodeLine_short fields (by simp) (other short inside) decoded)
  obtain rfl : kind = first := (List.cons.inj columns).1
  have others : [addr, size, last] = whole ++ field :: rest := (List.cons.inj columns).2
  by_cases few : (whole ++ [short]).length < 3
  · exact Or.inl (decodeLine_short fields few (other _ List.prefix_rfl) decoded)
  have lengths := congrArg List.length others
  simp only [List.length_append, List.length_cons, List.length_nil] at few lengths
  obtain ⟨second, third, rfl⟩ := List.length_eq_two.mp (show whole.length = 2 by omega)
  cases others
  exact Or.inr ⟨short, fields, inside⟩

theorem memread_cut {addr : BitVec 64} {size : Nat} (sized : AccessSize size) {mem : BitVec 64 → BitVec 8}
    {cut : Text} (torn : cut <+: line (memreadFields false addr size mem))
    (shorter : cut ≠ line (memreadFields false addr size mem)) {d : Option Dispatch}
    (decoded : decodeLine cut = .ok d) (s : M.State) : ∀ record ∈ d, Spares M s record := by
  rcases columns_cut (Or.inl rfl) (memreadFields_closed false addr size mem) torn shorter decoded with
    rfl | ⟨short, fields, inside⟩
  · simp
  have address := readUnsigned_hex false addr.toNat [] (by simp)
  rw [List.append_nil] at address
  rw [decodeLine, fields] at decoded
  obtain ⟨a, readAddress, decoded⟩ := Outcome.bind_ok decoded
  cases address.symm.trans readAddress
  obtain ⟨n, readSize, decoded⟩ := Outcome.bind_ok decoded
  cases (readUnsigned_decimal size).symm.trans readSize
  obtain ⟨value, read, decoded⟩ := Outcome.bind_ok decoded
  cases decoded
  rw [payload, if_pos (show size ∈ [1, 2, 4, 8] from sized)] at inside
  rintro record ⟨⟩
  exact ⟨addr.isLt, sized, lt_of_le_of_lt (readUnsigned_cut inside read) (load_lt mem addr size)⟩

theorem inst_cut {addr : BitVec 64} {opcode : List (BitVec 8)} {cut : Text}
    (torn : cut <+: line (instFields false addr opcode)) (shorter : cut ≠ line (instFields false addr opcode))
    {d : Option Dispatch} (decoded : decodeLine cut = .ok d) :
    d = none ∨ ∃ j, j ≤ opcode.length ∧ d = some (.instruction ⟨addr.toNat, opcode.take j⟩) := by
  rcases columns_cut (Or.inr rfl) (instFields_closed false addr opcode) torn shorter decoded with
    rfl | ⟨short, fields, inside⟩
  · exact Or.inl rfl
  have address := readUnsigned_hex false addr.toNat [] (by simp)
  rw [List.append_nil] at address
  rw [decodeLine, fields] at decoded
  obtain ⟨a, readAddress, decoded⟩ := Outcome.bind_ok decoded
  cases address.symm.trans readAddress
  obtain ⟨bytes, read, decoded⟩ := Outcome.bind_ok decoded
  cases decoded
  obtain ⟨j, bound, rfl⟩ := fromhex_cut inside read
  exact Or.inr ⟨j, bound, rfl⟩

theorem index_ok {α : Type} {name : String} {list : List α} {i : Nat} {value : α}
    (found : index name list i = .ok value) : list[i]? = some value := by
  unfold index at found
  split at found
  · cases found
    assumption
  · cases found

/-- Each column that is read is what is left of the one of its register. -/
theorem columns_left {regs : Gpr → BitVec 64} {columns rest : List Text} {field short : Text}
    (whole : (Gpr.all.map fun reg => hexField false (regs reg).toNat) = columns ++ field :: rest)
    (inside : short <+: field) {reg : Gpr} {i : Nat} (mapped : (reg, i) ∈ mapping) {text : Text}
    (found : (columns ++ [short])[i]? = some text) :
    text <+: hexField false (regs reg).toNat ∧
      (i < columns.length → text = hexField false (regs reg).toNat) := by
  have column : (columns ++ field :: rest)[i]? = some (hexField false (regs reg).toNat) := by
    rw [← whole, List.getElem?_map, mapping_columns _ mapped]
    rfl
  by_cases before : i < columns.length
  · rw [List.getElem?_append_left before] at found column
    cases found.symm.trans column
    exact ⟨List.prefix_rfl, fun _ => rfl⟩
  · rw [List.getElem?_append_right (not_lt.mp before)] at found column
    obtain ⟨here, rfl⟩ := List.getElem?_eq_some_iff.mp found
    have last : i - columns.length = 0 := Nat.lt_one_iff.mp here
    simp only [last, List.getElem?_cons_zero, Option.some.injEq] at column
    subst column
    simp only [last, List.getElem_cons_zero]
    exact ⟨inside, fun early => absurd early before⟩

theorem register_cut {s : M.State} {cut : Text} (torn : cut <+: line (registerFields false (shownRegister M s)))
    (shorter : cut ≠ line (registerFields false (shownRegister M s))) {d : Option Dispatch}
    (decoded : decodeLine cut = .ok d) : ∀ record ∈ d, Spares M s record := by
  let shown : Gpr → Text := fun reg => hexField false (shownRegister M s reg).toNat
  have closed := registerFields_closed false (shownRegister M s)
  have split : registerFields false (shownRegister M s) =
      (['r'] :: (Gpr.all.take 15).map shown) ++ [shown .r15 ++ ['\n']] := by
    simp [registerFields, Gpr.all, shown]
  rw [split] at torn shorter closed
  obtain ⟨whole, field, rest, short, columns, fields, inside⟩ := split_cut _ _ closed torn shorter
  rcases whole with _ | ⟨kind, whole⟩
  · obtain rfl : ['r'] = field := (List.cons.inj columns).1
    rw [decodeLine, fields] at decoded
    rcases List.prefix_cons_iff.mp inside with rfl | ⟨_, rfl, none⟩
    · cases decoded
      simp
    · rw [List.prefix_nil.mp none] at decoded
      cases decoded
  obtain rfl : ['r'] = kind := (List.cons.inj columns).1
  have all : Gpr.all.map shown = whole ++ field :: rest := (List.cons.inj columns).2
  have columns : ∃ values, readColumns (whole ++ [short]) = .ok values ∧ d = some (.syncReg values) := by
    simp only [decodeLine, fields, List.cons_append] at decoded
    obtain ⟨values, read, decoded⟩ := Outcome.bind_ok decoded
    cases decoded
    exact ⟨values, read, rfl⟩
  obtain ⟨values, read, rfl⟩ := columns
  have each := Outcome.mapM_forall₂ read
  have columned : ∀ {reg i v}, ((reg, i), v) ∈ mapping.zip values → ∃ text, (whole ++ [short])[i]? = some text ∧
      readUnsigned 16 text = .ok v ∧ text <+: shown reg ∧ (i < whole.length → text = shown reg) := by
    intro reg i v member
    obtain ⟨text, found, parsed⟩ := Outcome.bind_ok (List.forall₂_zip each member)
    exact ⟨text, index_ok found, parsed, columns_left all inside (List.of_mem_zip member).1 (index_ok found)⟩
  have many : 15 ≤ whole.length := by
    have last := (List.forall₂_iff_get.mp each).2 15 (by decide) (by rw [← each.length_eq]; decide)
    obtain ⟨text, found, -⟩ := Outcome.bind_ok last
    obtain ⟨bound, -⟩ := List.getElem?_eq_some_iff.mp (index_ok found)
    rw [List.length_append, List.length_singleton] at bound
    exact Nat.lt_succ_iff.mp bound
  rintro record ⟨⟩ column paired
  rw [List.zip_map_left] at paired
  obtain ⟨⟨⟨reg, i⟩, v⟩, member, rfl⟩ := List.mem_map.mp paired
  obtain ⟨text, -, parsed, left, full⟩ := columned member
  refine ⟨lt_of_le_of_lt (readUnsigned_cut left parsed) (shownRegister M s reg).isLt, ?_⟩
  rintro (rfl : reg = .rax)
  have first : ∀ entry ∈ mapping, entry.1 = .rax → entry.2 < 15 := by decide
  have early : i < whole.length := lt_of_lt_of_le (first _ (List.of_mem_zip member).1 rfl) many
  have column := readUnsigned_hex false (shownRegister M s .rax).toNat [] (by simp)
  rw [List.append_nil] at column
  rw [full early] at parsed
  cases column.symm.trans parsed
  exact shownRegister_toNat s .rax

/-- RAX holds the same value and expression. -/
def SameRax (ctx ctx' : T.Ctx) : Prop :=
  (T.view ctx').conc (.gpr .rax) = (T.view ctx).conc (.gpr .rax) ∧
    (T.view ctx').sym (.gpr .rax) = (T.view ctx).sym (.gpr .rax)

theorem SameRax.trans {ctx ctx' ctx'' : T.Ctx} (first : SameRax ctx ctx') (second : SameRax ctx' ctx'') :
    SameRax ctx ctx'' :=
  ⟨second.1.trans first.1, second.2.trans first.2⟩

section
variable (lawful : T.Lawful) {s : M.State}
include lawful

theorem spared_column {ctx : T.Ctx} {column : Gpr × Nat} (fits : column.2 < 2 ^ 64)
    (shown : column.1 = .rax → column.2 = M.cell s (.gpr .rax))
    (current : (T.view ctx).conc (.gpr .rax) = M.cell s (.gpr .rax)) :
    ∃ ctx', syncOneValue ctx column.1 column.2 = .ok ctx' ∧ SameRax ctx ctx' := by
  obtain ⟨ctx', synced, view, -⟩ := syncOneValue_becomes lawful ctx column.1 fits (v := fun _ => column.2) rfl
  refine ⟨ctx', synced, ?_⟩
  rw [SameRax, view]
  by_cases rax : column.1 = .rax
  · have equal : (T.view ctx).Matches [.gpr column.1] fun _ => column.2 := by
      rw [Store.matches_singleton, rax, current, shown rax]
    rw [Store.resync_of_matches equal]
    exact ⟨rfl, rfl⟩
  · apply Store.resync_frame
    intro member
    exact rax (Cell.gpr.inj (List.mem_singleton.mp member)).symm

theorem spared_columns {ctx : T.Ctx} {columns : List (Gpr × Nat)}
    (spares : ∀ column ∈ columns, column.2 < 2 ^ 64 ∧ (column.1 = .rax → column.2 = M.cell s (.gpr .rax)))
    (current : (T.view ctx).conc (.gpr .rax) = M.cell s (.gpr .rax)) :
    ∃ ctx', syncValues ctx columns = .ok ctx' ∧ SameRax ctx ctx' := by
  induction columns generalizing ctx with
  | nil => exact ⟨ctx, rfl, rfl, rfl⟩
  | cons column rest ih =>
    obtain ⟨here, later⟩ := List.forall_mem_cons.mp spares
    obtain ⟨middle, first, same⟩ := spared_column lawful here.1 here.2 current
    obtain ⟨ctx', others, same'⟩ := ih later (same.1.trans current)
    refine ⟨ctx', ?_, same.trans same'⟩
    simp only [syncValues, List.foldlM_cons, first] at others ⊢
    exact others

theorem spared_run {o : Options} {l : Loop T} {d : Dispatch} (spares : Spares M s d)
    (current : (T.view l.state.ctx).conc (.gpr .rax) = M.cell s (.gpr .rax)) :
    ∃ ctx, d.run o l = .ok (l.withCtx ctx) ∧ SameRax l.state.ctx ctx := by
  cases d with
  | syncMemory addr size value =>
    obtain ⟨small, sized, fits⟩ := spares
    obtain ⟨a, rfl⟩ : ∃ a : BitVec 64, a.toNat = addr := ⟨BitVec.ofNat 64 addr, Nat.mod_eq_of_lt small⟩
    have synced : ∃ ctx, syncMemoryValue l.state.ctx ⟨a.toNat, size⟩ value = .ok ctx ∧ SameRax l.state.ctx ctx := by
      simp only [syncMemoryValue, lawful.getConcreteMemoryValue _ a size sized, native, Except.mapError, bind,
        Except.bind]
      split
      · obtain ⟨ctx, stored, view, -⟩ := lawful.setConcreteMemoryValue l.state.ctx a size value sized fits
        refine ⟨ctx, by rw [stored], ?_⟩
        rw [SameRax, view]
        exact Store.overwrite_frame (Cell.gpr_notMem_range .rax a size)
      · exact ⟨_, rfl, rfl, rfl⟩
    obtain ⟨ctx, synced, same⟩ := synced
    refine ⟨ctx, ?_, same⟩
    simp only [Dispatch.run, synced]
    rfl
  | syncReg values =>
    obtain ⟨ctx, synced, same⟩ := spared_columns lawful spares current
    refine ⟨ctx, ?_, same⟩
    simp only [Dispatch.run, synced]
    rfl
  | instruction inst => exact spares.elim

/-- A line without an instruction, whole or not. -/
theorem spared_step {o : Options} {l l' : Loop T} {line : Text} {d : Option Dispatch}
    (decoded : decodeLine line = .ok d) (spares : ∀ record ∈ d, Spares M s record)
    (current : (T.view l.state.ctx).conc (.gpr .rax) = M.cell s (.gpr .rax))
    (step : emulateLine o l line = .ok l') : SameRax l.state.ctx l'.state.ctx := by
  rw [emulateLine_of_decoded o l decoded] at step
  cases d with
  | none =>
    cases step
    exact ⟨rfl, rfl⟩
  | some record =>
    obtain ⟨ctx, applied, same⟩ := spared_run lawful (o := o) (spares record rfl) current
    cases applied.symm.trans step
    exact same

theorem spared_lines {o : Options} {l : Loop T} {lines : List Text}
    (each : ∀ line ∈ lines, ∃ d, decodeLine line = .ok (some d) ∧ Spares M s d)
    (current : (T.view l.state.ctx).conc (.gpr .rax) = M.cell s (.gpr .rax)) :
    ∃ ctx, emulateLines o l lines = .ok (l.withCtx ctx) ∧ SameRax l.state.ctx ctx := by
  induction lines generalizing l with
  | nil => exact ⟨l.state.ctx, rfl, rfl, rfl⟩
  | cons line rest ih =>
    obtain ⟨⟨d, decoded, spares⟩, later⟩ := List.forall_mem_cons.mp each
    obtain ⟨middle, first, same⟩ := spared_run lawful (o := o) spares current
    obtain ⟨ctx, others, same'⟩ := ih (l := l.withCtx middle) later (same.1.trans current)
    refine ⟨ctx, ?_, same.trans same'⟩
    rw [emulateLines, List.foldlM_cons, emulateLine_of_decoded o l decoded]
    simp only [first]
    exact others

end

/-- The lines of the records in front of an instruction, without its own. -/
def linesBefore (M : Machine) (s : M.State) (reads : List Callback) : List Text :=
  reads.flatMap (Callback.lines false) ++ [line (registerFields false (shownRegister M s))]

theorem mem_linesBefore {i : Instruction} {s : M.State} {reads : List Callback} (reports : M.Reports i s reads)
    {text : Text} (member : text ∈ linesBefore M s reads) :
    (∃ addr size, AccessSize size ∧ text = line (memreadFields false addr size (M.memory s))) ∨
      text = line (registerFields false (shownRegister M s)) := by
  rw [linesBefore, List.mem_append, List.mem_singleton] at member
  rcases member with member | rfl
  · obtain ⟨call, read, inside⟩ := List.mem_flatMap.mp member
    obtain ⟨addr, size, sized, rfl⟩ := reports.memreads call read
    exact Or.inl ⟨addr, size, sized, List.mem_singleton.mp inside⟩
  · exact Or.inr rfl

theorem linesBefore_spare {i : Instruction} {s : M.State} {reads : List Callback} (reports : M.Reports i s reads)
    {text : Text} (member : text ∈ linesBefore M s reads) :
    ∃ d, decodeLine text = .ok (some d) ∧ Spares M s d := by
  rcases mem_linesBefore reports member with ⟨addr, size, sized, rfl⟩ | rfl
  · exact ⟨_, decodeLine_memread false addr _ sized, addr.isLt, sized, load_lt _ addr size⟩
  · refine ⟨_, decodeLine_register false _, ?_⟩
    rw [Spares, recorded_columns]
    intro column member
    obtain ⟨reg, -, rfl⟩ := List.mem_map.mp member
    refine ⟨(shownRegister M s reg).isLt, ?_⟩
    rintro rfl
    exact shownRegister_toNat s .rax

theorem linesBefore_cut {i : Instruction} {s : M.State} {reads : List Callback} (reports : M.Reports i s reads)
    {text cut : Text} (member : text ∈ linesBefore M s reads) (torn : cut <+: text) (shorter : cut ≠ text)
    {d : Option Dispatch} (decoded : decodeLine cut = .ok d) : ∀ record ∈ d, Spares M s record := by
  rcases mem_linesBefore reports member with ⟨addr, size, sized, rfl⟩ | rfl
  · exact memread_cut sized torn shorter decoded s
  · exact register_cut torn shorter decoded

/-- The kept lines are those of the callbacks in `before`, of the instructions that are all
there, and some of the lines in front of the next one. -/
structure BreaksOff (M : Machine) (is : List Instruction) (s₀ : M.State) (kept rest : List Text)
    (before : List Callback) (t : M.State) (shown : List Text) : Prop where
  logged : M.Logged (is.take (kept.countP isInstructionLine)) s₀ before t
  lines : kept = before.flatMap (Callback.lines false) ++ shown
  next : (shown = [] ∧ rest = []) ∨ ∃ i reads later more, is[kept.countP isInstructionLine]? = some i ∧
    i.address < 2 ^ 64 ∧ M.Reports i t reads ∧ linesBefore M t reads = shown ++ later ∧
    rest = later ++ line (instFields false (BitVec.ofNat 64 i.address) i.opcode) :: more

theorem linesBefore_silent {i : Instruction} {s : M.State} {reads : List Callback}
    (reports : M.Reports i s reads) {kept later : List Text} (inside : linesBefore M s reads = kept ++ later) :
    kept.countP isInstructionLine = 0 := by
  apply List.countP_eq_zero.mpr
  intro text member
  obtain ⟨d, decoded, spares⟩ := linesBefore_spare reports (inside ▸ List.mem_append_left later member)
  rw [← decodeLine_instruction decoded]
  cases d with
  | instruction inst => exact spares.elim
  | syncMemory addr size value => exact Bool.false_ne_true
  | syncReg values => exact Bool.false_ne_true

theorem log_breaksOff {is : List Instruction} {s₀ t₀ : M.State} {calls : List Callback}
    (logged : M.Logged is s₀ calls t₀) {kept rest : List Text}
    (split : calls.flatMap (Callback.lines false) = kept ++ rest) :
    ∃ before after t shown, calls = before ++ after ∧ BreaksOff M is s₀ kept rest before t shown := by
  induction logged generalizing kept rest with
  | done s =>
    obtain ⟨rfl, rfl⟩ := List.append_eq_nil_iff.mp split.symm
    exact ⟨[], [], s, [], rfl, .done s, rfl, Or.inl ⟨rfl, rfl⟩⟩
  | @next i is s s' t reads calls reports address stepped logged ih =>
    let inst := line (instFields false (BitVec.ofNat 64 i.address) i.opcode)
    have lines : linesBefore M s reads ++ inst :: calls.flatMap (Callback.lines false) = kept ++ rest := by
      rw [← split, lines_instruction, linesBefore, List.append_assoc]
      rfl
    -- The log breaks off before the first instruction line.
    have early : ∀ later, linesBefore M s reads = kept ++ later →
        rest = later ++ inst :: calls.flatMap (Callback.lines false) →
        BreaksOff M (i :: is) s kept rest [] s kept := by
      intro later inside onwards
      have none := linesBefore_silent reports inside
      refine ⟨?_, rfl, Or.inr ⟨i, reads, later, _, ?_, address, reports, inside, onwards⟩⟩
      · rw [none]
        exact .done s
      · rw [none]
        rfl
    rcases List.append_eq_append_iff.mp lines with ⟨beyond, rfl, onwards⟩ | ⟨later, inside, onwards⟩
    · cases beyond with
      | nil => exact ⟨[], _, s, _, rfl, early [] (by simp) onwards.symm⟩
      | cons first beyond =>
        obtain rfl : inst = first := (List.cons.inj onwards).1
        obtain ⟨before, after, t, shown, rfl, broken⟩ := ih (List.cons.inj onwards).2
        have count : (linesBefore M s reads ++ inst :: beyond).countP isInstructionLine =
            beyond.countP isInstructionLine + 1 := by
          have executed : isInstructionLine inst = true := by
            rw [← decodeLine_instruction (decodeLine_inst false _ i.opcode)]
            rfl
          rw [List.countP_append, linesBefore_silent reports (List.append_nil _).symm, List.countP_cons,
            if_pos executed, Nat.zero_add]
        refine ⟨reads ++ M.record i s :: before, after, t, shown, by simp, ?_, ?_, ?_⟩
        · rw [count]
          exact .next reports address stepped broken.logged
        · rw [lines_instruction, broken.lines, linesBefore]
          simp [inst]
        · rw [count]
          exact broken.next
    · exact ⟨[], _, s, kept, rfl, early later inside onwards⟩

/-- The instruction lines of a file that have their newline. -/
def wholeInstructions (file : Text) : Nat :=
  (readLines file).countP fun text => isInstructionLine text && text.getLast? == some '\n'

theorem readLines_torn {calls : List Callback} {file : Text} (torn : file <+: log calls) :
    ∃ kept rest short, calls.flatMap (Callback.lines false) = kept ++ rest ∧
      readLines file = kept ++ (if short = [] then [] else [short]) ∧
      wholeInstructions file = kept.countP isInstructionLine ∧ (file.getLast? = some '\n' → short = []) ∧
      (short = [] ∨ ∃ line more, rest = line :: more ∧ short <+: line ∧ short ≠ line) := by
  have whole : ∀ text ∈ calls.flatMap (Callback.lines false), Text.IsLine text ∧ '\r' ∉ text := by
    intro text member
    obtain ⟨call, -, inside⟩ := List.mem_flatMap.mp member
    obtain ⟨fields, rfl, closed⟩ := call.lines_closed false text inside
    exact closed.isLine
  have logged : log calls = (calls.flatMap (Callback.lines false)).flatten := by
    rw [log, logFile_eq, List.flatMap_map]
    rfl
  rw [logged] at torn
  have noReturn : '\r' ∉ file := by
    intro member
    obtain ⟨text, present, inside⟩ := List.mem_flatten.mp (torn.subset member)
    exact (whole text present).2 inside
  obtain ⟨kept, rest, short, split, rfl, ends⟩ := Text.cut_lines torn
  have each : ∀ text ∈ kept, Text.IsLine text := fun text member =>
    (whole text (split ▸ List.mem_append_left rest member)).1
  have plain : '\n' ∉ short := by
    rcases ends with rfl | ⟨text, more, rfl, cut, shorter⟩
    · simp
    · exact (whole text (split ▸ List.mem_append_right kept List.mem_cons_self)).1.cut cut shorter
  have lines : readLines (kept.flatten ++ short) = kept ++ (if short = [] then [] else [short]) := by
    rw [readLines, Text.universalNewlines_of_no_return noReturn, Text.lines_cut each plain]
  refine ⟨kept, rest, short, split, lines, ?_, ?_, ends⟩
  · have ended : ∀ text ∈ kept, text.getLast? = some '\n' := by
      intro text member
      obtain ⟨body, rfl, -⟩ := each text member
      exact List.getLast?_concat
    have unended : ∀ text ∈ (if short = [] then [] else [short]),
        ¬ (isInstructionLine text && text.getLast? == some '\n') = true := by
      intro text member counted
      rw [Bool.and_eq_true, beq_iff_eq] at counted
      split at member
      · cases member
      · rw [List.mem_singleton.mp member] at counted
        exact plain (List.mem_of_getLast? counted.2)
    rw [wholeInstructions, lines, List.countP_append, List.countP_eq_zero.mpr unended, Nat.add_zero]
    apply List.countP_congr
    intro text member
    rw [ended text member, beq_self_eq_true, Bool.and_true]
  · intro last
    by_contra nonempty
    rw [List.getLast?_append_of_ne_nil _ nonempty] at last
    exact plain (List.mem_of_getLast? last)

variable (M) in
/-- The expression is what the runs of a path return. -/
def Computes (symsize : Nat) (path : List Instruction) (s₀ : M.State) (e : T.Ast) : Prop :=
  ∀ s t input, Alike M symsize s₀ s → M.SamePath path s₀ s t → Inputs M symsize s input →
    T.denote e input = M.cell t (.gpr .rax) % 256 ^ 4

section
variable (lawful : T.Lawful) {o : Options}
include lawful

/-- As long as RAX is not touched after the replay of a run, it stands for the runs on its path. -/
theorem rax_computes {is : List Instruction} {s₀ t : M.State} {calls : List Callback} {l₀ l : Loop T}
    (carried : Carried T M o is s₀ t calls l₀ l) (calm : Undisturbed T M o is s₀ ∅ l₀ calls) {ctx : T.Ctx}
    (same : SameRax l.state.ctx ctx) : Computes M o.symsize is s₀ (T.getRegisterAst ctx .eax) := by
  intro s t input alike path traced
  have value : (T.view ctx).value T.denote input (.gpr .rax) =
      (T.view l.state.ctx).value T.denote input (.gpr .rax) := by
    rw [Store.value, Store.value, same.1, same.2]
  have original : T.denote (T.getRegisterAst l.state.ctx .eax) input = M.cell t (.gpr .rax) % 256 ^ 4 :=
    carried.denotes lawful calm alike path traced (carried.registers .rax)
  rw [lawful.getRegisterAst] at original ⊢
  exact (congrArg (Register.part .eax) value).trans original

/-- What is left of the next line does nothing to RAX, or executes what is left of the opcode. -/
theorem cut_step {i : Instruction} {t : M.State} {reads : List Callback} (reports : M.Reports i t reads)
    {shown later more rest : List Text} (inside : linesBefore M t reads = shown ++ later) {text cut : Text}
    (onwards : text :: rest =
      later ++ line (instFields false (BitVec.ofNat 64 i.address) i.opcode) :: more)
    (torn : cut <+: text) (shorter : cut ≠ text) {l l' : Loop T}
    (current : (T.view l.state.ctx).conc (.gpr .rax) = M.cell t (.gpr .rax)) (step : emulateLine o l cut = .ok l') :
    SameRax l.state.ctx l'.state.ctx ∨ later = [] ∧ ∃ j, j ≤ i.opcode.length ∧ ∀ k : Loop T,
      emulateLine o k cut =
        emulateLine o k (line (instFields false (BitVec.ofNat 64 i.address) (i.opcode.take j))) := by
  obtain ⟨d, decoded⟩ := decodeLine_of_consumed step
  cases later with
  | cons first later =>
    obtain rfl : text = first := (List.cons.inj onwards).1
    have member : text ∈ linesBefore M t reads := by simp [inside]
    exact Or.inl (spared_step lawful decoded (linesBefore_cut reports member torn shorter decoded) current step)
  | nil =>
    obtain rfl := (List.cons.inj onwards).1
    rcases inst_cut torn shorter decoded with rfl | ⟨j, bound, rfl⟩
    · exact Or.inl (spared_step lawful decoded (by simp) current step)
    · refine Or.inr ⟨rfl, j, bound, fun k => ?_⟩
      rw [emulateLine_of_decoded o k decoded, emulateLine_inst]

variable (inputs : ∀ ctx i, T.SameInputs ctx (T.processing ctx i).1) (sound : T.Sound M) (emulates : T.Emulates M)
  (symsized : AccessSize o.symsize)
include inputs sound emulates symsized

/-- A first replay of a log that is cut anywhere. If the cut is behind a newline, it computes the
function of the instructions before. If it is in a line, the replay fails, or it computes that
function too, or it executes one more instruction with at most its bytes: all of them where
only the newline is missing. -/
theorem onePath_torn {u : State T} (fresh : u.ctx = setMode T.new) {i : Instruction} {is : List Instruction}
    {s₀ t₀ : M.State} {calls : List Callback} (logged : M.Logged (i :: is) s₀ calls t₀)
    (flags : M.FlagsWritten ∅ (i :: is) s₀) (idle : o.recording = false)
    (calm : Undisturbed T M o (i :: is) s₀ ∅ (Loop.start u) calls) {file : Text} (torn : file <+: log calls)
    (begun : 0 < wholeInstructions file) :
    (file.getLast? = some '\n' → ∃ u' e, onePath o u file = .ok (u', e) ∧
      Computes M o.symsize ((i :: is).take (wholeInstructions file)) s₀ e) ∧
    ∀ u' e, onePath o u file = .ok (u', e) →
      Computes M o.symsize ((i :: is).take (wholeInstructions file)) s₀ e ∨
      ∃ before t reads next j, M.Logged ((i :: is).take (wholeInstructions file)) s₀ before t ∧
        (i :: is)[wholeInstructions file]? = some next ∧ M.Reports next t reads ∧ j ≤ next.opcode.length ∧
        onePath o u file =
          onePath o u (log (before ++ reads ++ [M.record ⟨next.address, next.opcode.take j⟩ t])) := by
  obtain ⟨kept, rest, short, split, lines, count, whole, ends⟩ := readLines_torn torn
  obtain ⟨before, after, t, shown, rfl, broken⟩ := log_breaksOff logged split
  have reached := broken.logged
  have next := broken.next
  rw [← count] at reached next
  rw [onePath_lines, lines, broken.lines]
  generalize wholeInstructions file = k at *
  obtain ⟨k, rfl⟩ := Nat.exists_eq_succ_of_ne_zero (Nat.pos_iff_ne_zero.mp begun)
  rw [← List.take_append_drop (k + 1) (i :: is)] at flags calm
  have executed := flags.left
  have undisturbed := calm.left
  have sized := Machine.Logged.sized reached
  obtain ⟨-, plain, unseeded⟩ := fresh_view lawful fresh
  have answers : o.Answers T := fun recording => by simp [idle] at recording
  obtain ⟨l, ran⟩ := replay_total lawful symsized answers sized (Machine.Logged.decodable sound reached)
    (l := Loop.start u) fun _ => Or.inl unseeded
  rw [Nat.succ_eq_add_one, List.take_succ_cons] at *
  have carried : Carried T M o (i :: is.take k) s₀ t before (Loop.start u) l :=
    log_carried lawful inputs sound emulates symsized reached executed rfl (Or.inl ⟨unseeded, plain⟩) ran
  have current : (T.view l.state.ctx).conc (.gpr .rax) = M.cell t (.gpr .rax) :=
    carried.shadows _ (carried.registers .rax)
  have spared : ∀ text ∈ shown, ∃ d, decodeLine text = .ok (some d) ∧ Spares M t d := by
    intro text member
    rcases next with ⟨rfl, -⟩ | ⟨_, reads, later, _, _, _, reports, inside, _⟩
    · cases member
    · exact linesBefore_spare reports (inside ▸ List.mem_append_left later member)
  obtain ⟨ctx, shownRan, same⟩ := spared_lines lawful (o := o) spared current
  have loop : emulateLines o (Loop.start u) (before.flatMap (Callback.lines false) ++ shown) =
      .ok (l.withCtx ctx) := by
    rw [emulateLines_append, emulateLines_calls o _ sized, ran]
    exact shownRan
  constructor
  -- Behind a newline nothing is left of the next line.
  · intro last
    rw [if_pos (whole last), List.append_nil, loop]
    exact ⟨_, _, rfl, rax_computes lawful carried undisturbed same⟩
  intro u' e ended
  by_cases empty : short = []
  · rw [if_pos empty, List.append_nil, loop] at ended
    cases ended
    exact Or.inl (rax_computes lawful carried undisturbed same)
  have beyond : ∀ text, emulateLines o (Loop.start u) (before.flatMap (Callback.lines false) ++ shown ++ [text]) =
      emulateLine o (l.withCtx ctx) text := by
    intro text
    rw [emulateLines_append, loop]
    exact bind_pure (emulateLine o (l.withCtx ctx) text)
  rw [if_neg empty, beyond] at ended ⊢
  obtain ⟨text, more, rfl, cut, shorter⟩ := ends.resolve_left empty
  obtain ⟨l', step, finished⟩ := Outcome.bind_ok ended
  cases finished
  rcases next with ⟨-, none⟩ | ⟨next, reads, later, _, found, address, reports, inside, onwards⟩
  · cases none
  rcases cut_step lawful reports inside onwards cut shorter (same.1.trans current) step with
    kept | ⟨rfl, j, bound, executes⟩
  · exact Or.inl (rax_computes lawful carried undisturbed (same.trans kept))
  · refine Or.inr ⟨before, t, reads, next, j, reached, found, reports, bound, ?_⟩
    let record := M.record ⟨next.address, next.opcode.take j⟩ t
    have written : (before ++ reads ++ [record]).flatMap (Callback.lines false) =
        before.flatMap (Callback.lines false) ++ shown ++
          [line (instFields false (BitVec.ofNat 64 next.address) (next.opcode.take j))] := by
      rw [List.append_nil] at inside
      rw [List.append_assoc, List.flatMap_append, lines_instruction, ← inside, linesBefore]
      simp
    rw [onePath_lines, readLines_log, written, beyond, executes]

end

open Reference

/-- `mov eax, edi; mov eax, esi` -/
def copyProgram : List Instruction := [⟨0x401000, [0x89, 0xf8]⟩, ⟨0x401002, [0x89, 0xf0]⟩]

set_option maxRecDepth 10000 in
/-- The tracer was stopped before it wrote the line of the second instruction: the first one
is all that is replayed. Where it wrote all but the newline, the second one is too. -/
theorem onePath_torn_copy :
    let calls := trace copyProgram 2 (twoArguments 1 2)
    (∃ u' e, onePath (alone 4) start ((readLines (log calls)).take 3).flatten = .ok (u', e) ∧
      engine.denote e (pair 700 77) = 700) ∧
    ∃ u' e, onePath (alone 4) start (log calls).dropLast = .ok (u', e) ∧ engine.denote e (pair 700 77) = 77 ∧
      ∃ before t reads j, (machine copyProgram).Logged (copyProgram.take 1) (twoArguments 1 2) before t ∧ j ≤ 2 ∧
        onePath (alone 4) start (log calls).dropLast = onePath (alone 4) start (log (before ++ reads ++
          [(machine copyProgram).record ⟨0x401002, [0x89, 0xf0].take j⟩ t])) := by
  intro calls
  have logged : (machine copyProgram).Logged copyProgram (twoArguments 1 2) calls
      (final copyProgram 2 (twoArguments 1 2)) := trace_logged (by decide) 2 (twoArguments 1 2)
  have flags : (machine copyProgram).FlagsWritten ∅ copyProgram (twoArguments 1 2) :=
    flagsWritten_of_flagless (by decide) ∅ (twoArguments 1 2)
  have calm : Undisturbed engine (machine copyProgram) (alone 4) copyProgram (twoArguments 1 2) ∅ (Loop.start start)
      calls := .of_registers engine_lawful (by decide +kernel) fun _ _ _ _ _ _ _ => rfl
  have path : (machine copyProgram).SamePath (copyProgram.take 1) (twoArguments 1 2) (twoArguments 700 77) _ :=
    executed_path 1 (twoArguments 1 2) (twoArguments 700 77) (by decide)
  have first : ∀ e, Computes (machine copyProgram) 4 (copyProgram.take 1) (twoArguments 1 2) e →
      engine.denote e (pair 700 77) = 700 := by
    intro e computes
    have returned := computes _ _ (pair 700 77) ⟨twoArguments_alike 1 2 700 77, rfl, rfl⟩ path ⟨rfl, rfl⟩
    exact returned.trans (by decide +kernel)
  constructor
  · let file := ((readLines (log calls)).take 3).flatten
    have whole : wholeInstructions file = 1 := by decide +kernel
    obtain ⟨ended, -⟩ := onePath_torn engine_lawful engine_consistent.inputs (engine_sound (by decide))
      (engine_emulates copyProgram) (by decide) rfl logged flags rfl calm
      (show file <+: log calls by decide +kernel) (by rw [whole]; decide)
    obtain ⟨u', e, ran, computes⟩ := ended (by decide +kernel)
    rw [whole] at computes
    exact ⟨u', e, ran, first e computes⟩
  · let file := (log calls).dropLast
    have whole : wholeInstructions file = 1 := by decide +kernel
    obtain ⟨-, torn⟩ := onePath_torn engine_lawful engine_consistent.inputs (engine_sound (by decide))
      (engine_emulates copyProgram) (by decide) rfl logged flags rfl calm
      (List.dropLast_prefix (log calls)) (show 0 < wholeInstructions file by rw [whole]; decide)
    have value : answer (onePath (alone 4) start file) (pair 700 77) = some 77 := by decide +kernel
    cases ran : onePath (alone 4) start file with
    | error e =>
      rw [ran] at value
      cases value
    | ok result =>
      obtain ⟨u', e⟩ := result
      rw [ran] at value
      have value : engine.denote e (pair 700 77) = 77 := Option.some.inj value
      obtain computes | ⟨before, t, reads, next, j, reached, found, -, bound, same⟩ := torn u' e ran
      · rw [whole] at computes
        rw [first e computes] at value
        cases value
      · rw [whole] at reached found
        cases found
        exact ⟨u', e, rfl, value, before, t, reads, j, reached, bound, ran ▸ same⟩

end Devirt.Attack
