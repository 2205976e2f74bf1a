import ChipEight.Proofs.Account
import ChipEight.Proofs.Requests

/-!
# What out-of-bounds faults name

A fault that something is out of bounds names an index.  A byte, a key or a word is refused with the
index that was asked for, a block with the address of its last byte, and a pixel with its place in
reading order.  A block that begins below memory may end in it, and a pixel beside the screen may
have the place of one on it; in these cases, and in no others, the index that is named is in bounds.
In particular the instructions of a program never come to such a fault, since their blocks begin at
zero or above.
-/

namespace ChipEight

/-- The indices that a space has: addresses of memory, numbers of keys, and the places of pixels in
reading order. -/
def Space.Has : Space → Int → Prop
  | .memory, index => 0 ≤ index ∧ index < 4096
  | .key, index => 0 ≤ index ∧ index < 16
  | .pixel, index => 0 ≤ index ∧ index < 2048
  | .other _, _ => False

instance (index : Int) : (space : Space) → Decidable (space.Has index)
  | .memory | .key | .pixel => inferInstanceAs (Decidable (_ ∧ _))
  | .other _ => .isFalse id

/-- What is lacking lies out of bounds, but its name does not: a block that begins below memory and
ends in it, or a pixel to the left or right of the screen with the place of another one. -/
def Resource.Misnamed : Resource → Prop
  | .block address count => address < 0 ∧ 0 < address + count ∧ address + count ≤ 4096
  | .pixel x y => (x < 0 ∨ 64 ≤ x) ∧ 0 ≤ y * 64 + x ∧ y * 64 + x < 2048
  | _ => False

/-- A command that asks for something with a name that is in bounds although the thing is not. -/
def Command.Misnames (c : Command) : Prop :=
  ∃ resource, c.demand? = some (.resource resource) ∧ resource.Misnamed

/-- If the error is an index out of bounds, then the index is none of its space. -/
def Error.NamesOutside (e : Error) : Prop :=
  ∀ space index address, e = .fault ⟨.outOfBounds space index, address⟩ → ¬ space.Has index

namespace Error.NamesOutside

theorem refusal (r : Refusal) : NamesOutside (.refusal r) := nofun

theorem fault {cause : Cause} {address : Option Int}
    (h : ∀ space index, cause = .outOfBounds space index → ¬ space.Has index) :
    NamesOutside (.fault ⟨cause, address⟩) := by
  rintro space index _ ⟨⟩
  exact h space index rfl

end Error.NamesOutside

open ChipEight.Action (FailsWith)

/-! ## Requests -/

namespace Machine

variable {m : Machine}

/-- A name is in bounds only where it is not that of what is lacking. -/
theorem Lacks.has_iff {resource : Resource} {space : Space} {index : Int}
    (h : m.Lacks resource (.outOfBounds space index)) :
    space.Has index ↔ resource.Misnamed := by
  generalize hcause : Cause.outOfBounds space index = cause at h
  cases h with
  | byte hout =>
    cases hcause
    simp only [Space.Has, Resource.Misnamed, iff_false]
    omega
  | block hcount hout =>
    cases hcause
    simp only [Space.Has, Resource.Misnamed]
    omega
  | freeSlot _ => cases hcause
  | openCall _ => cases hcause
  | pixel hout =>
    cases hcause
    simp only [Space.Has, Resource.Misnamed]
    omega
  | outside hout =>
    cases hcause
    simp only [Space.Has, Resource.Misnamed, iff_false]
    omega
  | straddling _ =>
    cases hcause
    simp [Space.Has, Resource.Misnamed]
  | key hout =>
    cases hcause
    simp only [Space.Has, Resource.Misnamed, iff_false]
    omega

/-- A request is refused with an index out of bounds only for want of what it names. -/
theorem Denies.has_iff {demand : Demand} {space : Space} {index : Int} {address : Option Int}
    (h : m.Denies demand (.fault ⟨.outOfBounds space index, address⟩)) :
    space.Has index ↔ ∃ resource, demand = .resource resource ∧ resource.Misnamed := by
  generalize he : Error.fault ⟨.outOfBounds space index, address⟩ = e at h
  cases h with
  | lacks hlacks =>
    cases he
    rw [hlacks.has_iff]
    simp
  | _ => cases he

end Machine

/-! ## Steps and time steps -/

namespace Processor

variable {p : Processor} {cause : Cause}

/-- An obstacle is named by an index that is out of bounds: blocks begin at zero or above. -/
theorem not_has_of_obstacle {i : Instruction} {v : View} (h : Manual.Obstacle v i cause)
    (space : Space) (index : Int) (hcause : cause = .outOfBounds space index) :
    ¬ space.Has index := by
  cases h with
  | underflow _ => cases hcause
  | overflow _ => cases hcause
  | key _ hkey =>
    cases hcause
    simp only [Space.Has, keyCount] at hkey ⊢
    omega
  | sprite _ hout =>
    cases hcause
    simp only [Space.Has, memorySize] at hout ⊢
    omega
  | digits hout =>
    cases hcause
    simp only [Space.Has, memorySize] at hout ⊢
    omega
  | registers _ hout =>
    cases hcause
    simp only [Space.Has, memorySize] at hout ⊢
    omega

theorem Stops.namesOutside (h : Stops p cause) (address : Option Int) :
    Error.NamesOutside (.fault ⟨cause, address⟩) := by
  refine .fault fun space index hcause ↦ ?_
  cases h with
  | outside hout =>
    cases hcause
    simp only [Space.Has, memorySize] at hout ⊢
    omega
  | straddling _ =>
    cases hcause
    simp [Space.Has]
  | unknown _ _ _ => cases hcause
  | obstacle _ _ ho => exact not_has_of_obstacle ho space index hcause

end Processor

namespace Interpreter

/-- If an action fails with an index out of bounds, then the index is none of its space. -/
abbrev FailsOutside {α : Type} (x : Action Interpreter α) : Prop :=
  FailsWith (fun e _ ↦ e.NamesOutside) x

theorem failsOutside_stepProcessor : FailsOutside stepProcessor := by
  intro i e he
  obtain ⟨-, cause, hs, rfl, -⟩ := Processor.stops_of_result_error he
  exact hs.namesOutside _

theorem failsOutside_advance (dt : Binary64) : FailsOutside (advance dt) := by
  have hturn : FailsOutside turn :=
    failsOutside_stepProcessor.bind fun _ ↦ .modify _
  have haccrue : FailsOutside (accrue dt) := by
    intro i e he
    change (i.pacer.accrue dt).1.mapError .refusal = .error e at he
    cases hcount : (i.pacer.accrue dt).1 with
    | error r =>
      rw [hcount] at he
      cases he
      exact .refusal r
    | ok count =>
      rw [hcount] at he
      cases he
  rw [advance_eq]
  refine .ite (.fail fun _ ↦ .refusal _) ((FailsWith.gets _).bind fun _ ↦ .ite (.pure _) ?_)
  exact haccrue.bind fun count ↦ (hturn.replicate count).bind fun _ ↦ .pure _

/-- What is no request fails, if at all, with an index that is out of bounds. -/
theorem failsOutside_perform {c : Command} (hc : c.demand? = none) :
    FailsOutside (perform c) := by
  cases c with
  | step =>
    have hstep : FailsOutside step :=
      (FailsWith.gets _).bind fun _ ↦ failsOutside_stepProcessor.ite (.pure _)
    exact hstep.map _
  | stepProcessor => exact failsOutside_stepProcessor.map _
  | runProcessor count =>
    have hstep : FailsOutside (do let _ ← stepProcessor) :=
      failsOutside_stepProcessor.bind fun _ ↦ .pure _
    exact (hstep.replicate count).bind fun _ ↦ .pure _
  | tick dt =>
    have htick : FailsOutside (tick dt) :=
      (FailsWith.gets _).bind fun _ ↦ (failsOutside_advance dt).ite (.pure _)
    exact htick.map _
  | advance dt => exact (failsOutside_advance dt).map _
  | consumeRedraw => exact .of_ok fun _ ↦ ⟨_, rfl⟩
  | resetProcessor => exact .of_ok fun _ ↦ ⟨_, rfl⟩
  | resetPacer => exact .of_ok fun _ ↦ ⟨_, rfl⟩
  | resetMachine => exact .of_ok fun _ ↦ ⟨_, rfl⟩
  | countDown => exact .of_ok fun _ ↦ ⟨_, rfl⟩
  | clearScreen => exact .of_ok fun _ ↦ ⟨_, rfl⟩
  | assign assignment => exact .of_ok fun _ ↦ ⟨_, rfl⟩
  | releaseKeys => exact .of_ok fun _ ↦ ⟨_, rfl⟩
  | _ => cases hc

/-- What an out-of-bounds fault names.  In whatever state, if a command fails with an index out of
bounds, then the index is none of its space, unless the command asks for a block that begins below
memory and ends in it or for a pixel beside the screen with the place of one on it; and in these
cases the index is one of its space. -/
theorem index_out_of_bounds_iff (i : Interpreter) (c : Command) {space : Space} {index : Int}
    {address : Option Int}
    (h : (perform c i).result = .error (.fault ⟨.outOfBounds space index, address⟩)) :
    space.Has index ↔ c.Misnames := by
  cases hc : c.demand? with
  | none =>
    have houtside : ¬ space.Has index := failsOutside_perform hc i _ h space index address rfl
    simp [houtside, Command.Misnames, hc]
  | some demand =>
    rw [((perform_eq_error_iff_denies hc).1 h).has_iff, Command.Misnames, hc]
    simp

/-- Three bytes from below memory are refused with the address of the last one, which is in
memory. -/
theorem block_below_memory_is_misnamed :
    let refused := (perform (.readBlock (-1) 3) bare).result
    refused = .error (.fault ⟨.outOfBounds .memory 1, none⟩) ∧ Space.memory.Has 1 := by
  intro refused
  have hrefused : refused = .error (.fault ⟨.outOfBounds .memory 1, none⟩) := by decide +kernel
  have hmisnamed : (Command.readBlock (-1) 3).Misnames := ⟨_, rfl, by decide, by decide, by decide⟩
  exact ⟨hrefused, (index_out_of_bounds_iff bare _ hrefused).2 hmisnamed⟩

/-- Not every index that is named is out of bounds: the pixel to the right of the first row has the
place of the first one in the second row. -/
theorem pixel_beside_screen_is_misnamed :
    ¬ ∀ (i : Interpreter) (c : Command) (space : Space) (index : Int) (address : Option Int),
      (perform c i).result = .error (.fault ⟨.outOfBounds space index, address⟩) →
      ¬ space.Has index := by
  intro h
  exact h bare (.pixel 64 0) .pixel 64 none (by decide +kernel) (by decide)

end Interpreter

end ChipEight
