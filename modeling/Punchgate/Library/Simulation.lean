import Punchgate.Library.Mealy

/-!
# A machine inside another

A step of one machine may take several steps of another, which it drives with inputs of its own. If
every step does, then every run of the one is a run of the other, and what the runs of the other
guarantee holds for it as well.
-/

namespace Mealy

variable {σ ι ο σ' ι' ο' β : Type*}

namespace Machine

/-- The inputs that a machine gives to the one inside it along a run. -/
def told (m : Machine σ ι ο) (tell : ι → ο → ι') (s : σ) : List ι → List ι'
  | [] => []
  | i :: is => (m.step s i).2.map (tell i) ++ told m tell (m.step s i).1 is

variable {m : Machine σ ι ο} {m' : Machine σ' ι' ο'} {inside : σ → σ'} {tell : ι → ο → ι'}
  {emit : ο → List ο'} {s : σ} {is : List ι}

/-- What is told is read off the outputs. -/
theorem map_told (f : ι' → β) (g : ο → β) (h : ∀ i o, f (tell i o) = g o) (s : σ) (is : List ι) :
    (m.told tell s is).map f = (m.outputs s is).map g := by
  induction is generalizing s with
  | nil => rfl
  | cons i is ih =>
    rw [told, outputs, List.map_append, List.map_append, ih, List.map_map]
    congr 1
    exact List.map_congr_left fun o _ => h i o

/-- Every step of a machine is a run of the one inside it: `tell` are the inputs that it gives, and
`emit` the outputs that it gets. -/
structure Drives (m : Machine σ ι ο) (m' : Machine σ' ι' ο') (inside : σ → σ') (tell : ι → ο → ι')
    (emit : ο → List ο') : Prop where
  /-- The state inside is the one that is reached. -/
  after : ∀ s i, m'.after (inside s) ((m.step s i).2.map (tell i)) = inside (m.step s i).1
  /-- The outputs are those of the run. -/
  outputs : ∀ s i, m'.outputs (inside s) ((m.step s i).2.map (tell i)) =
    (m.step s i).2.flatMap emit

/-- **Simulation.** Every run is a run of the machine inside. -/
theorem Drives.run (h : m.Drives m' inside tell emit) (s : σ) (is : List ι) :
    m'.after (inside s) (m.told tell s is) = inside (m.after s is) ∧
      m'.outputs (inside s) (m.told tell s is) = (m.outputs s is).flatMap emit := by
  induction is generalizing s with
  | nil => exact ⟨rfl, rfl⟩
  | cons i is ih =>
    obtain ⟨hafter, houtputs⟩ := ih (m.step s i).1
    constructor
    · rw [told, after_append, h.after, hafter, after_cons]
    · rw [told, outputs_append, h.after, h.outputs, houtputs, Machine.outputs, List.flatMap_append]

end Machine

end Mealy
