import ChipEight.Proofs.Commands
import Mathlib.Logic.Function.Iterate

/-!
# Calls and returns

Calls and returns alone look at the call stack: what any other step does has nothing to do with the
stack and leaves it as it is.  So the row of slots with its depth does, step by step, what a list of
return addresses does that is never longer than the row, and the slots out of use do not matter.
-/

namespace ChipEight

open Manual

/-! ## The stack as a list -/

namespace ReturnList

/-- Opens a call on a list of return addresses, which has as much room as the call stack. -/
def push (calls : List Int) (address : Int) : Except Cause (List Int) :=
  if calls.length < stackSize then .ok (calls ++ [address]) else .error CallStack.overflow

/-- Closes the latest call of a list. -/
def pop (calls : List Int) : Except Cause (Int × List Int) :=
  match calls.getLast? with
  | some address => .ok (address, calls.dropLast)
  | none => .error CallStack.underflow

theorem pop_append (calls : List Int) (address : Int) :
    pop (calls ++ [address]) = .ok (address, calls) := by
  simp [pop]

end ReturnList

namespace CallStack

/-- To the list a call on the stack is a call on the list. -/
theorem map_opened (s : CallStack) (address : Int) :
    (s.opened address).map toList = ReturnList.push s.toList address := by
  rw [ReturnList.push, length_toList]
  by_cases h : s.depth < stackSize
  · have ht := opened_of_lt h address
    rw [if_pos h, ht, ← toList_opened ht]
    rfl
  · have hfull : s.depth = stackSize := Nat.le_antisymm s.depth_le (Nat.le_of_not_lt h)
    rw [if_neg h, opened_eq_error_iff.2 ⟨hfull, rfl⟩]
    rfl

/-- To the list a return from the stack is a return from the list. -/
theorem map_closed (s : CallStack) :
    (s.closed.map fun r ↦ (r.1, r.2.toList)) = ReturnList.pop s.toList := by
  by_cases h : s.depth = 0
  · have hnil : s.toList = [] := List.length_eq_zero_iff.1 ((length_toList s).trans h)
    rw [closed_eq_error_iff.2 ⟨h, rfl⟩, hnil]
    rfl
  · have ht := closed_of_pos (Nat.pos_of_ne_zero h)
    rw [ht, toList_closed ht, ReturnList.pop_append]
    rfl

end CallStack

namespace Processor

variable {p : Processor} {w : Word}

/-- The processor with another call stack. -/
def withStack (p : Processor) (stack : CallStack) : Processor :=
  { p with machine := p.machine.withStack stack }

/-- The processor behind an instruction that went on at an address. -/
def jumped (p : Processor) (address : Int) : Processor :=
  { p with
    machine := { p.machine with pc := address, busy := false }
    keys := p.machine.keypad.toList }

/-! ## Steps that call or return -/

/-- An instruction that is found has its word in memory. -/
theorem of_instruction?_eq_some {i : Instruction} (h : p.instruction? = some i) :
    p.machine.HasWord ∧ Instruction.ofWord? p.machine.word = some i := by
  have hw : p.machine.HasWord := by
    by_contra hw
    exact Option.some_ne_none i (h.symm.trans (instruction?_of_not_hasWord hw))
  exact ⟨hw, (instruction?_of_hasWord hw).symm.trans h⟩

/-- A call goes on at its address with the way back on the stack, which has to have room. -/
theorem step_of_call (running : p.isHalted = false) (h : p.instruction? = some ⟨.call, w⟩) :
    step p =
      match p.machine.stack.opened (p.machine.pc + 2) with
      | .ok stack => ⟨(p.jumped w.nnn).withStack stack, .ok (some ⟨.call, w⟩), p.dispatchNotes⟩
      | .error cause => p.faulted cause := by
  obtain ⟨hw, hi⟩ := of_instruction?_eq_some h
  cases hpush : p.machine.stack.opened (p.machine.pc + 2) with
  | ok stack =>
    have hc := cycle_of_ok p.machine.pc hw hi (execute_call (p := p.fetched) hpush)
    rw [step_of_cycle_ok running hc, dispatchNotes_of_some h]
    rfl
  | error cause =>
    obtain ⟨hfull, rfl⟩ := CallStack.opened_eq_error_iff.1 hpush
    exact step_eq_of_stops running (.obstacle hw hi (.overflow hfull))

/-- A return goes on at the latest address on the stack, which must not be empty. -/
theorem step_of_ret (running : p.isHalted = false) (h : p.instruction? = some ⟨.ret, w⟩) :
    step p =
      match p.machine.stack.closed with
      | .ok (address, stack) =>
        ⟨(p.jumped address).withStack stack, .ok (some ⟨.ret, w⟩), p.dispatchNotes⟩
      | .error cause => p.faulted cause := by
  obtain ⟨hw, hi⟩ := of_instruction?_eq_some h
  cases hpop : p.machine.stack.closed with
  | ok r =>
    have hc := cycle_of_ok p.machine.pc hw hi (execute_ret (p := p.fetched) hpop)
    rw [step_of_cycle_ok running hc, dispatchNotes_of_some h]
    rfl
  | error cause =>
    obtain ⟨hempty, rfl⟩ := CallStack.closed_eq_error_iff.1 hpop
    exact step_eq_of_stops running (.obstacle hw hi (.underflow hempty))

/-! ## Other stacks -/

theorem pc_withStack (p : Processor) (stack : CallStack) :
    (p.withStack stack).machine.pc = p.machine.pc := rfl

theorem instruction?_withStack (p : Processor) (stack : CallStack) :
    (p.withStack stack).instruction? = p.instruction? := instruction?_congr rfl rfl

theorem dispatchNotes_withStack (p : Processor) (stack : CallStack) :
    (p.withStack stack).dispatchNotes = p.dispatchNotes := dispatchNotes_congr rfl rfl

/-- A fault does nothing to the stack. -/
theorem faulted_withStack (p : Processor) (stack : CallStack) (cause : Cause) :
    (p.withStack stack).faulted cause =
      ⟨(p.faulted cause).state.withStack stack, (p.faulted cause).result,
        (p.faulted cause).log⟩ := by
  have hpc : (p.withStack stack).machine.nextPc = p.machine.nextPc := Machine.nextPc_congr rfl
  rw [faulted, stopped, hpc, dispatchNotes_withStack]
  rfl

/-- A call with another stack depends on that stack alone. -/
theorem step_withStack_of_call (running : p.isHalted = false)
    (h : p.instruction? = some ⟨.call, w⟩) (stack : CallStack) :
    step (p.withStack stack) =
      match stack.opened (p.machine.pc + 2) with
      | .ok stack => ⟨(p.jumped w.nnn).withStack stack, .ok (some ⟨.call, w⟩), p.dispatchNotes⟩
      | .error cause => (p.withStack stack).faulted cause := by
  rw [← dispatchNotes_withStack p stack]
  exact step_of_call (p := p.withStack stack) running ((instruction?_withStack p stack).trans h)

/-- A return with another stack depends on that stack alone. -/
theorem step_withStack_of_ret (running : p.isHalted = false)
    (h : p.instruction? = some ⟨.ret, w⟩) (stack : CallStack) :
    step (p.withStack stack) =
      match stack.closed with
      | .ok (address, stack) =>
        ⟨(p.jumped address).withStack stack, .ok (some ⟨.ret, w⟩), p.dispatchNotes⟩
      | .error cause => (p.withStack stack).faulted cause := by
  rw [← dispatchNotes_withStack p stack]
  exact step_of_ret (p := p.withStack stack) running ((instruction?_withStack p stack).trans h)

/-- The next step neither calls nor returns. -/
def SparesStack (p : Processor) : Prop :=
  p.isHalted = false → ∀ i ∈ p.instruction?, i.op ≠ .call ∧ i.op ≠ .ret

theorem obstacle_withStack {i : Instruction} {cause : Cause} (hi : i.op ≠ .call ∧ i.op ≠ .ret)
    (stack : CallStack) (h : Obstacle p.machine.view i cause) :
    Obstacle (p.withStack stack).machine.view i cause := by
  cases h with
  | underflow _ => exact absurd rfl hi.2
  | overflow _ => exact absurd rfl hi.1
  | key hop h => exact .key hop h
  | sprite hn h => exact .sprite hn h
  | digits h => exact .digits h
  | registers hop h => exact .registers hop h

theorem stops_withStack {cause : Cause} (running : p.isHalted = false) (spares : p.SparesStack)
    (stack : CallStack) (h : Stops p cause) : Stops (p.withStack stack) cause := by
  refine h.congr rfl rfl (fun _ _ hd ↦ hd) fun i hw hi ho ↦ ?_
  exact obstacle_withStack (spares running i ((instruction?_of_hasWord hw).trans hi)) stack ho

/-- What the manual says of instructions that neither call nor return has nothing to do with the
stack. -/
theorem view_withStack_of_after {legacyStore : Bool} {byte : UInt8} {i : Instruction}
    {m n : Machine} (hi : i.op ≠ .call ∧ i.op ≠ .ret) (stack : CallStack)
    (hn : n.view = after legacyStore i byte m.view) :
    (n.withStack stack).view = after legacyStore i byte (m.withStack stack).view := by
  have h : (n.withStack stack).view = { n.view with slots := stack.slot, depth := stack.depth } :=
    rfl
  obtain ⟨op, w⟩ := i
  rw [h, hn]
  cases op with
  | call => exact absurd rfl hi.1
  | ret => exact absurd rfl hi.2
  | _ => rfl

/-- A step that neither calls nor returns takes no notice of the stack and leaves it as it is. -/
theorem step_withStack (spares : p.SparesStack) (stack : CallStack) :
    step (p.withStack stack) = ⟨(step p).state.withStack stack, (step p).result, (step p).log⟩ := by
  have hends := ends_step p
  generalize step p = o at hends
  cases hends with
  | halted h => rw [step_of_isHalted (p := p.withStack stack) h]
  | stopped running hs =>
    have hs' := stops_withStack running spares stack hs
    rw [step_eq_of_stops (p := p.withStack stack) running hs', faulted_withStack]
  | passed running hw hi hd =>
    rw [step_eq_of_skipped (p := p.withStack stack) running hw hi hd]
    rfl
  | carriedOut running hw hi clear hm =>
    have hop := spares running _ ((instruction?_of_hasWord hw).trans hi)
    -- an obstacle with the other stack would be one with the stack as it was
    have clear' : ∀ cause, ¬ Obstacle (p.withStack stack).machine.view _ cause := fun cause ho ↦
      clear cause (obstacle_withStack (p := p.withStack stack) hop p.machine.stack ho)
    obtain ⟨n, hstep, hn⟩ := step_eq_of_clear (p := p.withStack stack) running hw hi clear'
    rw [hstep, Machine.view_injective (hn.trans (view_withStack_of_after hop stack hm).symm)]
    rfl

/-- What the next step of a processor has to do with the call stack. -/
inductive StackUse (p : Processor) : Prop
  | call (w : Word) : p.isHalted = false → p.instruction? = some ⟨.call, w⟩ → StackUse p
  | ret (w : Word) : p.isHalted = false → p.instruction? = some ⟨.ret, w⟩ → StackUse p
  | nothing : p.SparesStack → StackUse p

theorem stackUse (p : Processor) : p.StackUse := by
  by_cases spares : p.SparesStack
  · exact .nothing spares
  · simp only [SparesStack, not_forall, not_and_or, not_not] at spares
    obtain ⟨running, ⟨op, w⟩, hi, hop⟩ := spares
    obtain rfl | rfl := hop
    · exact .call w running hi
    · exact .ret w running hi

/-- A step that neither calls nor returns keeps the stack. -/
theorem stack_step (spares : p.SparesStack) : (step p).state.machine.stack = p.machine.stack :=
  congrArg (fun o ↦ o.state.machine.stack) (step_withStack spares p.machine.stack)

end Processor

/-! ## The processor with a list -/

/-- A processor that keeps the return addresses of its calls in a list; the stack of the rest of it
is not used. -/
structure ListProcessor where
  rest : Processor
  calls : List Int

/-- The processor with its call stack as a list. -/
def Processor.listed (p : Processor) : ListProcessor :=
  ⟨p.withStack .empty, p.machine.stack.toList⟩

namespace ListProcessor

variable {α : Type}

/-- An outcome of the rest, with the list of calls that goes with it. -/
def keep (calls : List Int) (o : Outcome Processor α) : Outcome ListProcessor α :=
  ⟨⟨o.state, calls⟩, o.result, o.log⟩

/-- A step of the processor with a list: calls and returns act on the list, and all else on the
rest. -/
def step : Action ListProcessor (Option Instruction) := fun q ↦
  if q.rest.isHalted then ⟨q, .ok none, []⟩
  else
    match q.rest.instruction? with
    | some ⟨.call, w⟩ =>
      match ReturnList.push q.calls (q.rest.machine.pc + 2) with
      | .ok calls =>
        keep calls ⟨q.rest.jumped w.nnn, .ok (some ⟨.call, w⟩), q.rest.dispatchNotes⟩
      | .error cause => keep q.calls (q.rest.faulted cause)
    | some ⟨.ret, w⟩ =>
      match ReturnList.pop q.calls with
      | .ok (address, calls) =>
        keep calls ⟨q.rest.jumped address, .ok (some ⟨.ret, w⟩), q.rest.dispatchNotes⟩
      | .error cause => keep q.calls (q.rest.faulted cause)
    | _ => keep q.calls (Processor.step q.rest)

/-- What neither calls nor returns is left to the rest. -/
theorem step_of_sparesStack {q : ListProcessor} (spares : q.rest.SparesStack) :
    step q = keep q.calls (Processor.step q.rest) := by
  rw [step]
  split
  · next halted =>
    rw [Processor.step_of_isHalted halted]
    rfl
  · next running =>
    split
    · next w hi => exact absurd rfl (spares (Bool.eq_false_of_not_eq_true running) _ hi).1
    · next w hi => exact absurd rfl (spares (Bool.eq_false_of_not_eq_true running) _ hi).2
    · rfl

/-- An outcome of the processor, with its call stack as a list. -/
def listedOutcome (o : Outcome Processor α) : Outcome ListProcessor α :=
  keep o.state.machine.stack.toList ⟨o.state.withStack .empty, o.result, o.log⟩

theorem listedOutcome_faulted (p : Processor) (cause : Cause) :
    listedOutcome (p.faulted cause) =
      keep p.machine.stack.toList ((p.withStack .empty).faulted cause) := by
  rw [Processor.faulted_withStack]
  rfl

/-- The processor with a list does step by step what the processor does. -/
theorem step_listed (p : Processor) : step p.listed = listedOutcome (Processor.step p) := by
  have hi := Processor.instruction?_withStack p .empty
  have hlog := Processor.dispatchNotes_withStack p .empty
  cases p.stackUse with
  | call w running h =>
    have hrest : p.listed.rest.isHalted = false := running
    have hpush := CallStack.map_opened p.machine.stack (p.machine.pc + 2)
    rw [step, if_neg (by simp [hrest]), Processor.step_of_call running h]
    simp only [Processor.listed, hi, h, Processor.pc_withStack, ← hpush]
    cases p.machine.stack.opened (p.machine.pc + 2) with
    | ok stack =>
      rw [hlog]
      rfl
    | error cause => exact (listedOutcome_faulted p cause).symm
  | ret w running h =>
    have hrest : p.listed.rest.isHalted = false := running
    rw [step, if_neg (by simp [hrest]), Processor.step_of_ret running h]
    simp only [Processor.listed, hi, h, ← CallStack.map_closed]
    cases p.machine.stack.closed with
    | ok r =>
      rw [hlog]
      rfl
    | error cause => exact (listedOutcome_faulted p cause).symm
  | nothing spares =>
    have hrest : p.listed.rest.SparesStack := fun running ↦ hi ▸ spares running
    rw [step_of_sparesStack hrest]
    simp only [Processor.listed, Processor.step_withStack spares, listedOutcome,
      Processor.stack_step spares]

/-- So it does in any number of steps. -/
theorem iterate_step_listed (n : Nat) (p : Processor) :
    (fun q ↦ (step q).state)^[n] p.listed = ((fun p ↦ (Processor.step p).state)^[n] p).listed := by
  have hsemiconj : Function.Semiconj Processor.listed (fun p ↦ (Processor.step p).state)
      (fun q ↦ (step q).state) := fun p ↦ (congrArg Outcome.state (step_listed p)).symm
  exact (hsemiconj.iterate_right n p).symm

end ListProcessor

end ChipEight
