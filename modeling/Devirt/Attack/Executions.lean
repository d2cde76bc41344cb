import Devirt.Attack.Replay

/-! The executed instructions of a replay, one after the other, and what the
recorder makes of them: `V_JMP` is a function of this sequence alone. -/
namespace Devirt.Attack
open Tracer
open Python (PyError)

variable (T : Triton) in
/-- One executed instruction with the context that the recorder sees. -/
structure Execution where
  ctx : T.Ctx
  address : Nat
  inst : Processed

variable {T : Triton}

def Dispatch.execution (o : Options) (l : Loop T) : Dispatch → List (Execution T)
  | .instruction inst =>
    match burnFuse o l.state l.fuse, T.disassembly inst with
    | .ok s, .ok () =>
      let (ctx, processed) := T.processing s.ctx inst
      [⟨ctx, inst.address, processed⟩]
    | _, _ => []
  | _ => []

def executions (o : Options) : Loop T → List Dispatch → List (Execution T)
  | _, [] => []
  | l, d :: rest => d.execution o l ++
      match d.run o l with
      | .ok next => executions o next rest
      | .error _ => []

theorem execution_of_decoded {o : Options} {l : Loop T} {s : State T} {inst : Instruction}
    (burnt : burnFuse o l.state l.fuse = .ok s) (decodes : T.Decodes inst) :
    (Dispatch.instruction inst).execution o l =
      [⟨(T.processing s.ctx inst).1, inst.address, (T.processing s.ctx inst).2⟩] := by
  have disassembled : T.disassembly inst = .ok () := decodes
  simp only [Dispatch.execution, burnt, disassembled]

/-- Every execution is the result of one `processing`. -/
theorem mem_executions {o : Options} {l : Loop T} {ds : List Dispatch} {e : Execution T}
    (member : e ∈ executions o l ds) : ∃ ctx inst, Dispatch.instruction inst ∈ ds ∧
      e = ⟨(T.processing ctx inst).1, inst.address, (T.processing ctx inst).2⟩ := by
  induction ds generalizing l with
  | nil => cases member
  | cons d rest ih =>
    rw [executions] at member
    rcases List.mem_append.mp member with here | later
    · cases d with
      | instruction inst =>
        simp only [Dispatch.execution] at here
        split at here
        · rename_i s _ _
          exact ⟨s.ctx, inst, List.mem_cons_self, List.mem_singleton.mp here⟩
        · cases here
      | syncMemory _ _ _ => cases here
      | syncReg _ => cases here
    · split at later
      · obtain ⟨ctx, inst, present, same⟩ := ih later
        exact ⟨ctx, inst, List.mem_cons_of_mem d present, same⟩
      · cases later

/-- What the second replay appends to `V_JMP` after an instruction. -/
def Execution.recorded (o : Options) (e : Execution T) : List T.Ast :=
  if o.recording then
    if o.visits e.address e.inst then
      match T.getRegister (o.vbrflag.getD "") with
      | .ok flag =>
        if (T.searchVariables (T.getRegisterAst e.ctx flag)).length = 2 then [condition e.ctx flag] else []
      | .error _ => []
    else []
  else []

theorem Execution.recorded_idle {o : Options} (idle : o.recording = false) (e : Execution T) :
    e.recorded o = [] := by
  rw [recorded, idle, if_neg (by decide)]

theorem Execution.recorded_eq {o : Options} {flag : Register} (recording : o.recording = true)
    (resolves : o.Resolves T flag) (e : Execution T) :
    e.recorded o = if o.Records e.ctx e.address e.inst flag then [condition e.ctx flag] else [] := by
  rw [recorded, if_pos recording, resolves]
  by_cases visited : o.visits e.address e.inst = true
  · simp only [Options.Records, visited, true_and, if_true]
  · rw [if_neg visited, if_neg fun records => visited records.1]

/-- The context stays, and `V_JMP` grows by what is recorded. -/
theorem detectingVjmp_ok {o : Options} {s s' : State T} {address : Nat} {inst : Processed}
    (detected : detectingVjmp o s address inst = .ok s') :
    s'.ctx = s.ctx ∧ s'.vJmp = s.vJmp ++ (Execution.mk s.ctx address inst).recorded o := by
  cases recording : o.recording with
  | false =>
    obtain ⟨t, found, ctx, vJmp⟩ := detectingVjmp_idle o s address inst recording
    cases found.symm.trans detected
    rw [Execution.recorded_idle recording, List.append_nil]
    exact ⟨ctx, vJmp⟩
  | true =>
    cases resolved : T.getRegister (o.vbrflag.getD "") with
    | ok flag =>
      rw [detectingVjmp_recording o s address inst recording resolved] at detected
      rw [Execution.recorded_eq recording resolved]
      cases detected
      split
      · exact ⟨rfl, rfl⟩
      · exact ⟨rfl, (List.append_nil _).symm⟩
    | error message =>
      unfold detectingVjmp at detected
      unfold Execution.recorded
      rw [if_pos recording] at detected ⊢
      split at detected
      · rw [resolved] at detected
        cases detected
      · rename_i elsewhere
        cases detected
        rw [if_neg elsewhere, List.append_nil]
        exact ⟨rfl, rfl⟩

theorem burnFuse_vJmp {o : Options} {s s' : State T} {fuse : Bool}
    (burnt : burnFuse o s fuse = .ok s') :
    s'.vJmp = s.vJmp := by
  unfold burnFuse at burnt
  split at burnt
  · obtain ⟨ctx, _, burnt⟩ := Outcome.bind_ok burnt
    cases burnt
    rfl
  · cases burnt
    rfl

theorem run_vJmp {o : Options} {l l' : Loop T} {d : Dispatch} (ran : d.run o l = .ok l') :
    l'.state.vJmp = l.state.vJmp ++ (d.execution o l).flatMap (Execution.recorded o) := by
  cases d with
  | syncMemory addr size value =>
    obtain ⟨ctx, _, ran⟩ := Outcome.bind_ok ran
    cases ran
    exact (List.append_nil _).symm
  | syncReg values =>
    obtain ⟨ctx, _, ran⟩ := Outcome.bind_ok ran
    cases ran
    exact (List.append_nil _).symm
  | instruction inst =>
    obtain ⟨s, burnt, ran⟩ := Outcome.bind_ok ran
    obtain ⟨s', processed, ran⟩ := Outcome.bind_ok ran
    cases ran
    obtain ⟨decodes, detected⟩ := process_ok processed
    rw [execution_of_decoded burnt decodes, List.flatMap_singleton, (detectingVjmp_ok detected).2,
      burnFuse_vJmp burnt]

/-- A finished loop has recorded the conditions of its executions, in their order. -/
theorem executions_vJmp {o : Options} {ds : List Dispatch} {l l' : Loop T}
    (ran : ds.foldlM (Dispatch.run o) l = .ok l') :
    l'.state.vJmp = l.state.vJmp ++ (executions o l ds).flatMap (Execution.recorded o) := by
  induction ds generalizing l with
  | nil =>
    cases ran
    exact (List.append_nil _).symm
  | cons d rest ih =>
    obtain ⟨next, first, ran⟩ := Outcome.foldlM_cons_ok ran
    rw [ih ran, run_vJmp first]
    simp only [executions, first, List.flatMap_append, List.append_assoc]

/-- In particular the first replay records nothing. -/
theorem executions_idle {o : Options} {ds : List Dispatch} {l l' : Loop T} (idle : o.recording = false)
    (ran : ds.foldlM (Dispatch.run o) l = .ok l') : l'.state.vJmp = l.state.vJmp := by
  rw [executions_vJmp ran, List.flatMap_eq_nil_iff.mpr fun e _ => Execution.recorded_idle idle e,
    List.append_nil]

theorem executions_append {o : Options} {first : List Dispatch} {l middle : Loop T}
    (ran : first.foldlM (Dispatch.run o) l = .ok middle) (second : List Dispatch) :
    executions o l (first ++ second) = executions o l first ++ executions o middle second := by
  induction first generalizing l with
  | nil =>
    cases ran
    rfl
  | cons d rest ih =>
    obtain ⟨next, step, ran⟩ := Outcome.foldlM_cons_ok ran
    simp only [List.cons_append, executions, step, ih ran, List.append_assoc]

/-- A replay that ends with an instruction ends in the context of that execution. -/
theorem executions_last {o : Options} {before : List Callback} {regs : Gpr → BitVec 64} {addr : BitVec 64}
    {opcode : List (BitVec 8)} {l l' : Loop T}
    (ran : replay o l (before ++ [.inst regs addr opcode]) = .ok l') :
    ∃ earlier last, executions o l ((before ++ [Callback.inst regs addr opcode]).flatMap Callback.dispatches) =
      earlier ++ [last] ∧ last.ctx = l'.state.ctx := by
  rw [replay_append] at ran
  obtain ⟨middle, first, ran⟩ := Outcome.bind_ok ran
  rw [replay_singleton, Callback.dispatches] at ran
  obtain ⟨after, synced, ran⟩ := Outcome.foldlM_cons_ok ran
  obtain ⟨done, instruction, ran⟩ := Outcome.foldlM_cons_ok ran
  cases ran
  obtain ⟨s, burnt, instruction⟩ := Outcome.bind_ok instruction
  obtain ⟨s', processed, same⟩ := Outcome.bind_ok instruction
  cases same
  obtain ⟨decodes, detected⟩ := process_ok processed
  let processing := T.processing s.ctx ⟨addr.toNat, opcode⟩
  refine ⟨executions o l (before.flatMap Callback.dispatches), ⟨processing.1, addr.toNat, processing.2⟩, ?_,
    (detectingVjmp_ok detected).1.symm⟩
  rw [List.flatMap_append, executions_append first, List.flatMap_singleton, Callback.dispatches]
  simp only [executions, synced, execution_of_decoded burnt decodes]
  split <;> rfl

end Devirt.Attack
