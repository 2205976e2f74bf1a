import ChipEight.Proofs.Alike
import ChipEight.Proofs.Halting

/-!
# Returns go back to their calls

The notes of a program tell which calls it has made and not yet returned from.  Whatever it does in
between, the call stack holds the addresses behind these calls and nothing else, so that every
return goes on behind the latest of them.  Only the program calls and returns, and only what it has
called since it was loaded counts.
-/

namespace ChipEight

namespace Action

variable {σ γ α β : Type} {f : γ → Note → γ} {R : σ → γ → Prop}

/-- What an action makes of a state is told by its notes: a relation between states and accounts of
them is kept when each note is entered into the account. -/
def Follows (f : γ → Note → γ) (R : σ → γ → Prop) (x : Action σ α) : Prop :=
  ∀ s g, R s g → R (x s).state ((x s).log.foldl f g)

namespace Follows

/-- An action without notes, which changes nothing of which the account tells. -/
theorem of_silent {x : Action σ α} (hlog : ∀ s, (x s).log = [])
    (hstate : ∀ s g, R s g → R (x s).state g) : Follows f R x := by
  intro s g h
  rw [hlog s]
  exact hstate s g h

theorem pure (a : α) : Follows f R (pure a : Action σ α) :=
  of_silent (fun _ ↦ rfl) fun _ _ h ↦ h

theorem fail (e : Error) : Follows f R (fail e : Action σ α) :=
  of_silent (fun _ ↦ rfl) fun _ _ h ↦ h

theorem gets (g : σ → α) : Follows f R (gets g) := of_silent (fun _ ↦ rfl) fun _ _ h ↦ h

theorem bind {x : Action σ α} {k : α → Action σ β} (hx : Follows f R x)
    (hk : ∀ a, Follows f R (k a)) : Follows f R (x >>= k) := by
  intro s g h
  cases hr : (x s).result with
  | error e =>
    rw [bind_of_error hr]
    exact hx s g h
  | ok a =>
    rw [bind_of_ok hr, List.foldl_append]
    exact hk a _ _ (hx s g h)

end Follows

end Action

/-! ## The calls that are open -/

/-- The calls that are open after a note, given those before it: the addresses of the call
instructions, the oldest first.  A call is noted before it is made, and a full stack takes none. -/
def callsAfter (calls : List Int) : Note → List Int
  | .programLoaded _ => []
  | .dispatched address ⟨.call, _⟩ => calls ++ [address]
  | .dispatched _ ⟨.ret, _⟩ => calls.dropLast
  | .halted ⟨.stackOverflow _, _⟩ => calls.dropLast
  | _ => calls

/-- The calls that are made in a log and not returned from. -/
def openCalls (log : List Note) : List Int := log.foldl callsAfter []

theorem callsAfter_dispatched {i : Instruction} (hi : i.op ≠ .call ∧ i.op ≠ .ret)
    (calls : List Int) (address : Int) : callsAfter calls (.dispatched address i) = calls := by
  obtain ⟨op, w⟩ := i
  cases op with
  | call => exact absurd rfl hi.1
  | ret => exact absurd rfl hi.2
  | _ => rfl

namespace Processor

variable {p : Processor}

/-- The stack holds the addresses behind the open calls. -/
def Expects (p : Processor) (calls : List Int) : Prop :=
  p.machine.stack.toList = calls.map (· + 2)

/-- Only a call stops at a full stack. -/
theorem callsAfter_halted_of_sparesStack {cause : Cause} (running : p.isHalted = false)
    (spares : p.SparesStack) (hs : Stops p cause) (calls : List Int) (address : Option Int) :
    callsAfter calls (.halted ⟨cause, address⟩) = calls := by
  cases hs with
  | outside _ => rfl
  | straddling _ => rfl
  | unknown _ _ _ => rfl
  | obstacle hw hi ho =>
    have hop := spares running _ ((instruction?_of_hasWord hw).trans hi)
    cases ho with
    | underflow _ => rfl
    | overflow _ => exact absurd rfl hop.1
    | key _ _ => rfl
    | sprite _ _ => rfl
    | digits _ => rfl
    | registers _ _ => rfl

/-- A step that neither calls nor returns notes none of either. -/
theorem foldl_callsAfter_of_sparesStack (spares : p.SparesStack) (calls : List Int) :
    (step p).log.foldl callsAfter calls = calls := by
  have hends := ends_step p
  generalize step p = o at hends
  cases hends with
  | halted _ => rfl
  | stopped running hs =>
    have hdispatch : p.dispatchNotes.foldl callsAfter calls = calls := by
      cases hi : p.instruction? with
      | none =>
        rw [dispatchNotes_of_none hi]
        rfl
      | some i =>
        rw [dispatchNotes_of_some hi]
        exact callsAfter_dispatched (spares running i hi) _ _
    rw [faulted, List.foldl_append, hdispatch]
    exact callsAfter_halted_of_sparesStack running spares hs calls _
  | passed _ _ _ _ => rfl
  | carriedOut running hw hi _ _ =>
    exact callsAfter_dispatched (spares running _ ((instruction?_of_hasWord hw).trans hi)) _ _

/-- After each step the stack holds what its notes tell. -/
theorem follows_step : Action.Follows callsAfter Expects step := by
  intro p calls h
  have h : p.machine.stack.toList = calls.map (· + 2) := h
  cases p.stackUse with
  | call w running hi =>
    have hstep := step_of_call running hi
    cases hpush : p.machine.stack.opened (p.machine.pc + 2) with
    | ok stack =>
      simp only [hpush, dispatchNotes_of_some hi] at hstep
      rw [hstep]
      change stack.toList = (calls ++ [p.machine.pc]).map (· + 2)
      rw [CallStack.toList_opened hpush, h, List.map_append]
      rfl
    | error cause =>
      -- the call is noted all the same, and the note of the fault takes it back
      obtain ⟨-, rfl⟩ := CallStack.opened_eq_error_iff.1 hpush
      simp only [hpush, faulted, dispatchNotes_of_some hi] at hstep
      rw [hstep]
      change p.machine.stack.toList = (calls ++ [p.machine.pc]).dropLast.map (· + 2)
      rw [List.dropLast_concat, h]
  | ret w running hi =>
    have hstep := step_of_ret running hi
    cases hpop : p.machine.stack.closed with
    | ok r =>
      simp only [hpop, dispatchNotes_of_some hi] at hstep
      rw [hstep]
      change r.2.toList = calls.dropLast.map (· + 2)
      have hr : p.machine.stack.toList = r.2.toList ++ [r.1] := CallStack.toList_closed hpop
      rw [List.map_dropLast, ← h, hr, List.dropLast_concat]
    | error cause =>
      -- there is no open call that the note of the return could close
      obtain ⟨hempty, rfl⟩ := CallStack.closed_eq_error_iff.1 hpop
      simp only [hpop, faulted, dispatchNotes_of_some hi] at hstep
      rw [hstep]
      change p.machine.stack.toList = calls.dropLast.map (· + 2)
      have hnil : p.machine.stack.toList = [] :=
        List.length_eq_zero_iff.1 ((CallStack.length_toList _).trans hempty)
      rw [List.map_dropLast, ← h, hnil]
      rfl
  | nothing spares =>
    rw [foldl_callsAfter_of_sparesStack spares]
    exact (congrArg CallStack.toList (stack_step spares)).trans h

/-- A call fails if there is no room for another one, and only then. -/
theorem result_step_of_call {calls : List Int} {w : Word} (h : p.Expects calls)
    (running : p.isHalted = false) (hi : p.instruction? = some ⟨.call, w⟩) :
    (step p).result =
      if calls.length = stackSize then
        .error (.fault ⟨CallStack.overflow, some p.machine.pc⟩)
      else .ok (some ⟨.call, w⟩) := by
  have hdepth : p.machine.stack.depth = calls.length := by
    rw [← CallStack.length_toList, h, List.length_map]
  rw [step_of_call running hi, ← hdepth]
  cases hpush : p.machine.stack.opened (p.machine.pc + 2) with
  | ok stack =>
    have hroom : p.machine.stack.depth ≠ stackSize := by
      intro hfull
      rw [CallStack.opened_eq_error_iff.2 ⟨hfull, rfl⟩] at hpush
      cases hpush
    rw [if_neg hroom]
  | error cause =>
    obtain ⟨hfull, rfl⟩ := CallStack.opened_eq_error_iff.1 hpush
    rw [if_pos hfull]
    rfl

/-- A return goes on behind the latest open call; it fails if there is none, and only then. -/
theorem step_of_ret_cases {calls : List Int} {w : Word} (h : p.Expects calls)
    (running : p.isHalted = false) (hi : p.instruction? = some ⟨.ret, w⟩) :
    calls = [] ∧ (step p).result = .error (.fault ⟨CallStack.underflow, some p.machine.pc⟩) ∨
      ∃ outer address, calls = outer ++ [address] ∧ (step p).result = .ok (some ⟨.ret, w⟩) ∧
        (step p).state.machine.pc = address + 2 := by
  have h : p.machine.stack.toList = calls.map (· + 2) := h
  have hstep := step_of_ret running hi
  obtain rfl | ⟨outer, address, rfl⟩ := List.eq_nil_or_concat calls
  · have hempty : p.machine.stack.depth = 0 := by
      rw [← CallStack.length_toList, h]
      rfl
    rw [CallStack.closed_eq_error_iff.2 ⟨hempty, rfl⟩] at hstep
    refine .inl ⟨rfl, ?_⟩
    rw [hstep]
    rfl
  · have hpop := p.machine.stack.map_closed
    rw [List.concat_eq_append] at h ⊢
    rw [h, List.map_append, List.map_singleton, ReturnList.pop_append] at hpop
    cases hr : p.machine.stack.closed with
    | error cause =>
      rw [hr] at hpop
      cases hpop
    | ok r =>
      rw [hr] at hpop
      have haddress : r.1 = address + 2 := (Prod.mk.inj (Except.ok.inj hpop)).1
      rw [hr] at hstep
      refine .inr ⟨outer, address, rfl, ?_, ?_⟩
      · rw [hstep]
      · rw [hstep]
        exact haddress

end Processor

/-! ## Runs -/

namespace Interpreter

open ChipEight.Action (Follows)

variable {i j : Interpreter} {commands : List Command} {log : List Note} {calls : List Int}

/-- The call stack holds the addresses behind the given calls. -/
def Expects (i : Interpreter) (calls : List Int) : Prop := i.processor.Expects calls

theorem Expects.of_stack_eq (h : i.Expects calls) (hstack : j.machine.stack = i.machine.stack) :
    j.Expects calls :=
  (congrArg CallStack.toList hstack).trans h

theorem follows_modify {f : Interpreter → Interpreter}
    (hf : ∀ i, (f i).machine.stack = i.machine.stack) :
    Follows callsAfter Expects (Action.modify f) :=
  .of_silent (fun _ ↦ rfl) fun i _ h ↦ h.of_stack_eq (hf i)

theorem AsideOfStack.follows {x : Action Interpreter Reply} (hx : AsideOfStack x) :
    Follows callsAfter Expects x := by
  obtain ⟨y, rfl, hy⟩ := hx
  exact .of_silent hy.silent.on fun i _ h ↦ h.of_stack_eq (hy.stack_eq i.machine)

theorem follows_stepProcessor : Follows callsAfter Expects stepProcessor :=
  fun i ↦ Processor.follows_step i.processor

/-- The notes of every part of a command tell what it does to the stack. -/
theorem hereditary_follows : Hereditary fun _ ↦ Follows callsAfter Expects where
  pure := .pure
  fail := .fail
  bind := .bind
  isHalted := .gets _
  loaded := .gets _
  stepProcessor := follows_stepProcessor
  endTurn := follows_modify stack_endTurn
  accrue _ := .of_silent (fun _ ↦ rfl) fun _ _ h ↦ h
  loadMachine program font i calls h := by
    obtain ⟨e, hm⟩ | hm := i.machine.load_cases program font
    · rw [loadMachine_of_error hm]
      exact h
    · rw [loadMachine_of_ok hm]
      exact CallStack.toList_empty
  restart := follows_modify fun _ ↦ rfl
  resetProcessor := follows_modify fun _ ↦ rfl
  resetPacer := follows_modify fun _ ↦ rfl
  asideOfStack := AsideOfStack.follows

/-- After a run the stack holds what the notes of the run tell. -/
theorem expects_performAll (h : i.Expects calls) (hc : ∀ c ∈ commands, c.LeavesCalls) :
    (performAll commands i).Expects ((notes commands i).foldl callsAfter calls) := by
  induction commands generalizing i calls with
  | nil => exact h
  | cons c commands ih =>
    obtain ⟨hhead, htail⟩ := List.forall_mem_cons.1 hc
    rw [performAll_cons, notes_cons, List.foldl_append]
    exact ih (hereditary_follows.perform hhead i calls h) htail

/-- Whatever a run reaches, the stack holds what the notes up to there tell. -/
theorem expects_of_reaches (h : i.Expects []) (hc : ∀ c ∈ commands, c.LeavesCalls)
    (hj : i.Reaches commands j log) : j.Expects (openCalls log) := by
  have hrun := expects_performAll h hc
  cases hj with
  | behind => exact hrun
  | within dt turns =>
    have hturns := hereditary_follows.replicate hereditary_follows.turn turns _ _
      (hereditary_follows.accrue dt _ _ hrun)
    rw [← close_partway, ← log_partway] at hturns
    rw [openCalls, List.foldl_append]
    exact hturns

/-- A program that has been loaded has made no call. -/
theorem expects_load {program font : Bytes}
    (accepted : (perform (.load program font) i).result = .ok .done) :
    (perform (.load program font) i).state.Expects [] := by
  obtain ⟨e, hm⟩ | hm := i.machine.load_cases program font
  · rw [perform, Action.result_map, load_of_error hm] at accepted
    cases accepted
  · rw [perform, Action.state_map, load_of_ok hm]
    exact CallStack.toList_empty

/-- Slots out of use do not matter. -/
theorem staleSlots_performAll (i : Interpreter) {stack : CallStack}
    (h : stack.toList = i.machine.stack.toList) (later : List Command) :
    let i' := i.withMachine (i.machine.withStack stack)
    transcript later i' = transcript later i ∧
      ∃ stack', stack'.toList = (performAll later i).machine.stack.toList ∧
        performAll later i' = (performAll later i).withMachine
          ((performAll later i).machine.withStack stack') := by
  intro i'
  have halike : Alike .staleSlots i i' := .intro h.symm rfl
  obtain ⟨htranscript, hstate⟩ := halike.performAll later
  refine ⟨htranscript, ?_⟩
  generalize performAll later i = j, performAll later i' = j' at hstate
  cases hstate with
  | @intro stack' keys hstack hkeys =>
    cases hkeys
    exact ⟨stack', hstack.symm, rfl⟩

/-- Returns go back to their calls.  Whatever a program does after it has been loaded, and also in
the middle of a time step, the call stack holds the addresses behind the calls that its notes show
to be open.  So a call fails just when as many calls are open as there are slots, a return goes on
behind the latest of them and fails just when there is none, the processor does step by step what
one with a list of return addresses does, and no later answer, note or state depends on slots out of
use. -/
theorem returns_match_calls {program font : Bytes}
    (accepted : (perform (.load program font) i).result = .ok .done)
    (hc : ∀ c ∈ commands, c.LeavesCalls)
    (hj : (perform (.load program font) i).state.Reaches commands j log) :
    let calls := openCalls log
    let p := j.processor
    p.machine.stack.toList = calls.map (· + 2) ∧
    (p.isHalted = false → ∀ w,
      (p.instruction? = some ⟨.call, w⟩ →
        (stepProcessor j).result =
          if calls.length = stackSize then
            .error (.fault ⟨CallStack.overflow, some p.machine.pc⟩)
          else .ok (some ⟨.call, w⟩)) ∧
      (p.instruction? = some ⟨.ret, w⟩ →
        calls = [] ∧
            (stepProcessor j).result =
              .error (.fault ⟨CallStack.underflow, some p.machine.pc⟩) ∨
          ∃ outer address, calls = outer ++ [address] ∧
            (stepProcessor j).result = .ok (some ⟨.ret, w⟩) ∧
            (stepProcessor j).state.machine.pc = address + 2)) ∧
    (∀ n,
      let p := (fun p ↦ (Processor.step p).state)^[n] p
      let q := (fun q ↦ (ListProcessor.step q).state)^[n] j.processor.listed
      q = p.listed ∧ ListProcessor.step q = ListProcessor.listedOutcome (Processor.step p)) ∧
    ∀ stack : CallStack, stack.toList = p.machine.stack.toList → ∀ later : List Command,
      let j' := j.withMachine (j.machine.withStack stack)
      transcript later j' = transcript later j ∧
        ∃ stack', stack'.toList = (performAll later j).machine.stack.toList ∧
          performAll later j' = (performAll later j).withMachine
            ((performAll later j).machine.withStack stack') := by
  intro calls p
  have h : p.Expects calls := expects_of_reaches (expects_load accepted) hc hj
  refine ⟨h, fun running w ↦ ⟨?_, ?_⟩, fun n ↦ ?_, fun stack hstack ↦ ?_⟩
  · exact Processor.result_step_of_call h running
  · exact Processor.step_of_ret_cases h running
  · have hn := ListProcessor.iterate_step_listed n j.processor
    refine ⟨hn, ?_⟩
    rw [hn]
    exact ListProcessor.step_listed _
  · exact staleSlots_performAll j hstack

/-- A program that calls what returns at once. -/
def callAndReturn : Bytes := [0x22, 0x04, 0x00, 0xE0, 0x00, 0xEE]

/-- An interpreter in the middle of the call. -/
def called : Interpreter :=
  performAll [.step, .setKey 0xA true] (perform (.load callAndReturn builtInFont) bare).state

/-- The return goes back behind the call. -/
theorem callAndReturn_goes_back : (stepProcessor called).state.machine.pc = 0x202 := by
  obtain ⟨accepted, hlog, running, hret⟩ :
      (perform (.load callAndReturn builtInFont) bare).result = .ok .done ∧
      notes [.step, .setKey 0xA true] (perform (.load callAndReturn builtInFont) bare).state =
        [.dispatched 0x200 ⟨.call, .ofBytes 0x22 0x04⟩] ∧
      called.processor.isHalted = false ∧
      called.processor.instruction? = some ⟨.ret, .ofBytes 0x00 0xEE⟩ := by
    decide +kernel
  have hc : ∀ c ∈ [Command.step, .setKey 0xA true], c.LeavesCalls := by
    simp [Command.LeavesCalls]
  obtain ⟨-, hstep, -⟩ := returns_match_calls accepted hc .behind
  obtain ⟨hnil, -⟩ | ⟨outer, address, hcalls, -, hpc⟩ := (hstep running _).2 hret
  · rw [hlog] at hnil
    cases hnil
  · rw [hlog] at hcalls
    have hcalls : [] ++ [0x200] = outer ++ [address] := hcalls
    obtain ⟨-, rfl⟩ := List.append_singleton_inj.1 hcalls
    exact hpc

end Interpreter

end ChipEight
