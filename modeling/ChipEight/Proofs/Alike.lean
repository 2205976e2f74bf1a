import ChipEight.Proofs.Calls

/-!
# What no command can tell

Of an interpreter two things stay hidden: the slots of the call stack that are out of use, and the
keys that the latest instruction saw.  Interpreters that differ in them alone answer every command
alike, write the same notes, and differ in them alone afterwards.  That is shown of each command by
one lemma for each way in which actions are put together.
-/

namespace ChipEight

namespace Action

variable {σ α β : Type} {R : σ → σ → Prop}

/-- Outcomes with the same answer and the same notes, and with related states. -/
structure Agree (R : σ → σ → Prop) (o o' : Outcome σ α) : Prop where
  result : o'.result = o.result
  log : o'.log = o.log
  state : R o.state o'.state

/-- From related states an action gives the same answer and the same notes, and it leaves related
states. -/
def Respects (R : σ → σ → Prop) (x : Action σ α) : Prop := ∀ s t, R s t → Agree R (x s) (x t)

namespace Respects

theorem pure (a : α) : Respects R (pure a : Action σ α) := fun _ _ h ↦ ⟨rfl, rfl, h⟩

theorem fail (e : Error) : Respects R (fail e : Action σ α) := fun _ _ h ↦ ⟨rfl, rfl, h⟩

/-- Only what related states have in common may be read. -/
theorem gets {f : σ → α} (hf : ∀ s t, R s t → f t = f s) : Respects R (gets f) :=
  fun s t h ↦ ⟨congrArg Except.ok (hf s t h), rfl, h⟩

theorem modify {f : σ → σ} (hf : ∀ s t, R s t → R (f s) (f t)) : Respects R (modify f) :=
  fun s t h ↦ ⟨rfl, rfl, hf s t h⟩

theorem bind {x : Action σ α} {k : α → Action σ β} (hx : Respects R x)
    (hk : ∀ a, Respects R (k a)) : Respects R (x >>= k) := by
  intro s t h
  have hfirst := hx s t h
  cases hr : (x s).result with
  | error e =>
    rw [bind_of_error hr, bind_of_error (hfirst.result.trans hr)]
    exact ⟨rfl, hfirst.log, hfirst.state⟩
  | ok a =>
    have hsecond := hk a _ _ hfirst.state
    rw [bind_of_ok hr, bind_of_ok (hfirst.result.trans hr)]
    exact ⟨hsecond.result, congrArg₂ (· ++ ·) hfirst.log hsecond.log, hsecond.state⟩

end Respects

end Action

/-- Attempts that fail with the same error, or succeed with related results. -/
inductive Matches {ε α : Type} (R : α → α → Prop) : Except ε α → Except ε α → Prop
  | error (e : ε) : Matches R (.error e) (.error e)
  | ok {a b : α} : R a b → Matches R (.ok a) (.ok b)

namespace Matches

variable {ε α β : Type} {R S : α → α → Prop} {x y : Except ε α}

theorem refl (hR : ∀ a, R a a) (x : Except ε α) : Matches R x x := by
  cases x with
  | error e => exact .error e
  | ok a => exact .ok (hR a)

/-- Attempts that a function makes the same match through it. -/
theorem of_map_eq {f : α → β} (h : x.map f = y.map f) : Matches (fun a b ↦ f a = f b) x y := by
  cases x with
  | error e =>
    cases y with
    | error e' =>
      injection h with h
      rw [h]
      exact .error e'
    | ok b => cases h
  | ok a =>
    cases y with
    | error e => cases h
    | ok b =>
      injection h with h
      exact .ok h

theorem imp (hRS : ∀ a b, R a b → S a b) (h : Matches R x y) : Matches S x y := by
  cases h with
  | error e => exact .error e
  | ok hab => exact .ok (hRS _ _ hab)

end Matches

/-- A difference between call stacks that calls and returns cannot tell, and one between the keys
that the latest instruction saw. -/
structure Tolerance where
  stack : CallStack → CallStack → Prop
  keys : List Bool → List Bool → Prop
  stack_refl : ∀ s, stack s s
  keys_refl : ∀ k, keys k k
  push : ∀ {s t} (address : Int), stack s t → Matches stack (s.opened address) (t.opened address)
  pop : ∀ {s t}, stack s t → Matches (fun r r' ↦ r'.1 = r.1 ∧ stack r.2 r'.2) s.closed t.closed

namespace Tolerance

/-- Slots out of use may differ. -/
def staleSlots : Tolerance where
  stack s t := s.toList = t.toList
  keys := Eq
  stack_refl _ := rfl
  keys_refl _ := rfl
  push {s t} address h := .of_map_eq (by rw [s.map_opened, t.map_opened, h])
  pop {s t} h := by
    have hpop := s.map_closed
    rw [h, ← t.map_closed] at hpop
    refine (Matches.of_map_eq hpop).imp fun _ _ hr ↦ ?_
    obtain ⟨ha, ht⟩ := Prod.mk.inj hr
    exact ⟨ha.symm, ht⟩

/-- The keys that the latest instruction saw may differ. -/
def lastKeys : Tolerance where
  stack := Eq
  keys _ _ := True
  stack_refl _ := rfl
  keys_refl _ := trivial
  push _ h := h ▸ .refl (fun _ ↦ rfl) _
  pop h := h ▸ .refl (fun _ ↦ ⟨rfl, rfl⟩) _

end Tolerance

/-! ## The processor -/

namespace Processor

variable {p : Processor} {d : Tolerance} {stack : CallStack} {keys : List Bool}

/-- The processor with another call stack and another memory of the keys. -/
def withHidden (p : Processor) (stack : CallStack) (keys : List Bool) : Processor :=
  { p.withStack stack with keys := keys }

/-- Processors whose difference is tolerated. -/
inductive Alike (d : Tolerance) (p : Processor) : Processor → Prop
  | intro {stack : CallStack} {keys : List Bool} :
      d.stack p.machine.stack stack → d.keys p.keys keys → Alike d p (p.withHidden stack keys)

theorem alike_withStack (h : d.stack p.machine.stack stack) : Alike d p (p.withStack stack) :=
  .intro h (d.keys_refl p.keys)

/-- An instruction first looks at the keys, so that it does not matter what the one before saw. -/
theorem step_withHidden (running : p.isHalted = false) (stack : CallStack) (keys : List Bool) :
    step (p.withHidden stack keys) = step (p.withStack stack) := by
  rw [step_of_not_isHalted (p := p.withHidden stack keys) running,
    step_of_not_isHalted (p := p.withStack stack) running]
  rfl

theorem agree_faulted (h : d.stack p.machine.stack stack) (cause : Cause) :
    Action.Agree (Alike d) (p.faulted cause) ((p.withStack stack).faulted cause) := by
  rw [faulted_withStack]
  exact ⟨rfl, rfl, alike_withStack (p := (p.faulted cause).state) h⟩

/-- A step cannot tell a difference that is tolerated. -/
theorem respects_step : Action.Respects (Alike d) step := by
  rintro p _ ⟨hstack, hkeys⟩
  rename_i stack keys
  cases running : p.isHalted with
  | true =>
    rw [step_of_isHalted running, step_of_isHalted (p := p.withHidden stack keys) running]
    exact ⟨rfl, rfl, .intro hstack hkeys⟩
  | false =>
    rw [step_withHidden running]
    cases p.stackUse with
    | call w _ h =>
      rw [step_of_call running h, step_withStack_of_call running h]
      have hpush := d.push (p.machine.pc + 2) hstack
      generalize p.machine.stack.opened _ = x, stack.opened _ = y at hpush
      cases hpush with
      | error cause => exact agree_faulted hstack cause
      | ok ht => exact ⟨rfl, rfl, alike_withStack (p := (p.jumped w.nnn).withStack _) ht⟩
    | ret w _ h =>
      rw [step_of_ret running h, step_withStack_of_ret running h]
      have hpop := d.pop hstack
      generalize p.machine.stack.closed = x, stack.closed = y at hpop
      cases hpop with
      | error cause => exact agree_faulted hstack cause
      | @ok r r' hr =>
        obtain ⟨address, t⟩ := r
        obtain ⟨_, t'⟩ := r'
        obtain ⟨rfl, ht⟩ := hr
        exact ⟨rfl, rfl, alike_withStack (p := (p.jumped _).withStack t) ht⟩
    | nothing spares =>
      rw [step_withStack spares]
      refine ⟨rfl, rfl, alike_withStack ?_⟩
      rw [stack_step spares]
      exact hstack

end Processor

namespace Machine

/-- Timers count down whatever is on the stack. -/
theorem repeat_countDown_withStack (n : Nat) (m : Machine) (stack : CallStack) :
    Nat.repeat countDown n (m.withStack stack) = (Nat.repeat countDown n m).withStack stack := by
  induction n with
  | zero => rfl
  | succ n ih => exact congrArg countDown ih

end Machine

/-! ## Commands -/

namespace Interpreter

open ChipEight.Action (Respects Agree)

variable {d : Tolerance} {i j : Interpreter}

/-- The interpreter with another call stack and another memory of the keys. -/
def withHidden (i : Interpreter) (stack : CallStack) (keys : List Bool) : Interpreter :=
  { i with processor := i.processor.withHidden stack keys }

/-- Interpreters whose difference is tolerated. -/
inductive Alike (d : Tolerance) (i : Interpreter) : Interpreter → Prop
  | intro {stack : CallStack} {keys : List Bool} :
      d.stack i.machine.stack stack → d.keys i.processor.keys keys →
      Alike d i (i.withHidden stack keys)

theorem Alike.of_processor {q : Processor} (h : i.processor.Alike d q) :
    Alike d i { i with processor := q } := by
  cases h with
  | intro hstack hkeys => exact .intro hstack hkeys

/-- Another machine is tolerated if its stack is. -/
theorem Alike.withMachine {stack : CallStack} {keys : List Bool} {m : Machine}
    (hstack : d.stack m.stack stack) (hkeys : d.keys i.processor.keys keys) :
    Alike d (i.withMachine m) ((i.withHidden stack keys).withMachine (m.withStack stack)) :=
  .intro (i := i.withMachine m) hstack hkeys

/-- An action of the machine that does the same whatever the stack, and puts a stack in its place
that does not matter either. -/
theorem respects_onMachine {α : Type} {x : Action Machine α}
    (hx : ∀ {m : Machine} {stack : CallStack}, d.stack m.stack stack →
      ∃ t, x (m.withStack stack) = ⟨(x m).state.withStack t, (x m).result, (x m).log⟩ ∧
        d.stack (x m).state.stack t) :
    Respects (Alike d) (onMachine x) := by
  rintro i _ ⟨hstack, hkeys⟩
  rename_i stack keys
  obtain ⟨t, hother, ht⟩ := hx hstack
  have hm : (i.withHidden stack keys).machine = i.machine.withStack stack := rfl
  rw [onMachine, Action.on_apply, Action.on_apply, hm, hother]
  exact ⟨rfl, rfl, .withMachine ht hkeys⟩

theorem AsideOfStack.respects {x : Action Interpreter Reply} (hx : AsideOfStack x) :
    Respects (Alike d) x := by
  obtain ⟨y, rfl, hy⟩ := hx
  refine respects_onMachine fun {m stack} h ↦ ⟨stack, hy.ignores stack m, ?_⟩
  rw [hy.stack_eq]
  exact h

theorem respects_stepProcessor : Respects (Alike d) stepProcessor := by
  rintro i _ ⟨hstack, hkeys⟩
  have hstep := Processor.respects_step i.processor _ (.intro hstack hkeys)
  exact ⟨hstep.result, hstep.log,
    .of_processor (i := { i with processor := _ }) hstep.state⟩

theorem endTurn_withHidden (i : Interpreter) (stack : CallStack) (keys : List Bool) :
    (i.withHidden stack keys).endTurn = i.endTurn.withHidden stack keys := by
  have hm : ((i.withHidden stack keys).countInstructions 1).machine = i.machine.withStack stack :=
    rfl
  simp only [endTurn, payTimers, Pacer.payTimers, Pacer.settle_eq, hm,
    Machine.repeat_countDown_withStack]
  rfl

theorem stack_endTurn (i : Interpreter) : i.endTurn.machine.stack = i.machine.stack :=
  invariant_endTurn (P := fun m ↦ m.stack = i.machine.stack) (fun _ hm ↦ hm) rfl

/-- A change that has nothing to do with what is hidden. -/
theorem respects_modify {f : Interpreter → Interpreter}
    (hf : ∀ i stack keys, f (i.withHidden stack keys) = (f i).withHidden stack keys)
    (hstack : ∀ i, (f i).machine.stack = i.machine.stack)
    (hkeys : ∀ i, (f i).processor.keys = i.processor.keys) :
    Respects (Alike d) (Action.modify f) := by
  refine .modify ?_
  rintro i _ ⟨hs, hk⟩
  rw [← hstack] at hs
  rw [← hkeys] at hk
  rw [hf]
  exact .intro hs hk

/-- Every part of a command is blind to a difference that is tolerated. -/
theorem hereditary_respects : Hereditary fun _ ↦ Respects (Alike d) where
  pure := .pure
  fail := .fail
  bind := .bind
  isHalted := .gets fun _ _ h ↦ by cases h; rfl
  loaded := .gets fun _ _ h ↦ by cases h; rfl
  stepProcessor := respects_stepProcessor
  endTurn := respects_modify endTurn_withHidden stack_endTurn fun _ ↦ rfl
  accrue dt := by
    rintro i _ ⟨hstack, hkeys⟩
    exact ⟨rfl, rfl, .intro (i := (accrue dt i).state) hstack hkeys⟩
  loadMachine program font := by
    refine respects_onMachine fun {m stack} h ↦ ?_
    obtain ⟨e, hm, hother⟩ | ⟨hm, hother⟩ :=
      Machine.load_both (m := m) (n := m.withStack stack) rfl program font
    · rw [hm, hother]
      exact ⟨stack, rfl, h⟩
    · rw [hm, hother]
      exact ⟨_, rfl, d.stack_refl _⟩
  restart := respects_modify (fun _ _ _ ↦ rfl) (fun _ ↦ rfl) fun _ ↦ rfl
  resetProcessor := respects_modify (fun _ _ _ ↦ rfl) (fun _ ↦ rfl) fun _ ↦ rfl
  resetPacer := respects_modify (fun _ _ _ ↦ rfl) (fun _ ↦ rfl) fun _ ↦ rfl
  asideOfStack := AsideOfStack.respects

/-- Whatever the stack, opening a call fails alike or opens it on both. -/
theorem respects_push (address : Int) : Respects (Alike d) (onMachine (Machine.push address)) := by
  refine respects_onMachine fun {m stack} h ↦ ?_
  have hpush := d.push address h
  generalize hx : m.stack.opened address = x, hy : stack.opened address = y at hpush
  cases hpush with
  | error cause =>
    refine ⟨stack, ?_, ?_⟩
    · rw [Machine.push_of_not_opened hx, Machine.push_of_not_opened (m := m.withStack stack) hy]
    · rw [Machine.push_of_not_opened hx]
      exact h
  | @ok s t ht =>
    refine ⟨t, ?_, ?_⟩
    · rw [Machine.push_of_opened hx, Machine.push_of_opened (m := m.withStack stack) hy]
      rfl
    · rw [Machine.push_of_opened hx]
      exact ht

theorem respects_pop : Respects (Alike d) (onMachine Machine.pop) := by
  refine respects_onMachine fun {m stack} h ↦ ?_
  have hpop := d.pop h
  generalize hx : m.stack.closed = x, hy : stack.closed = y at hpop
  cases hpop with
  | error cause =>
    refine ⟨stack, ?_, ?_⟩
    · rw [Machine.pop_of_not_closed hx, Machine.pop_of_not_closed (m := m.withStack stack) hy]
    · rw [Machine.pop_of_not_closed hx]
      exact h
  | @ok r r' hr =>
    obtain ⟨address, s⟩ := r
    obtain ⟨_, t⟩ := r'
    obtain ⟨rfl, ht⟩ := hr
    refine ⟨t, ?_, ?_⟩
    · rw [Machine.pop_of_closed hx, Machine.pop_of_closed (m := m.withStack stack) hy]
      rfl
    · rw [Machine.pop_of_closed hx]
      exact ht

theorem respects_perform (c : Command) : Respects (Alike d) (perform c) := by
  cases c with
  | resetMachine =>
    refine hereditary_respects.map _ (respects_onMachine fun {m stack} _ ↦ ?_)
    exact ⟨m.reset.stack, rfl, d.stack_refl _⟩
  | push address => exact hereditary_respects.map _ (respects_push address)
  | pop => exact hereditary_respects.map _ respects_pop
  | _ =>
    refine hereditary_respects.perform ?_
    exact trivial

/-- Alike interpreters answer every run alike and come out alike. -/
theorem Alike.performAll (h : Alike d i j) (commands : List Command) :
    transcript commands j = transcript commands i ∧
      Alike d (performAll commands i) (performAll commands j) := by
  induction commands generalizing i j with
  | nil => exact ⟨rfl, h⟩
  | cons c commands ih =>
    have hc := respects_perform c i j h
    obtain ⟨htranscript, hstate⟩ := ih hc.state
    refine ⟨?_, hstate⟩
    rw [transcript, transcript, hc.result, hc.log, htranscript]

end Interpreter

end ChipEight
