/-!
# Probed results

A result together with the type texts that a codec was asked about on the way to it, in order.
-/

namespace ContractAbi

/-- A result, and the types that were probed for it. -/
structure Probed (α : Type) where
  result : α
  probes : List String

namespace Probed

variable {α β : Type}

/-- A result that needed no probe. -/
def unprobed (result : α) : Probed α := ⟨result, []⟩

/-- The result after one more probe in front of all others. -/
def behind (type : String) (later : Probed α) : Probed α := ⟨later.result, type :: later.probes⟩

/-- The probes of both steps, one after the other. -/
def andThen (first : Probed α) (next : α → Probed β) : Probed β :=
  let second := next first.result
  ⟨second.result, first.probes ++ second.probes⟩

/-- The result changed, with the same probes. -/
def map (change : α → β) (probed : Probed α) : Probed β := ⟨change probed.result, probed.probes⟩

@[simp] theorem result_unprobed (result : α) : (unprobed result).result = result := rfl

@[simp] theorem probes_unprobed (result : α) : (unprobed result).probes = [] := rfl

@[simp] theorem result_behind (type : String) (later : Probed α) :
    (later.behind type).result = later.result := rfl

@[simp] theorem probes_behind (type : String) (later : Probed α) :
    (later.behind type).probes = type :: later.probes := rfl

@[simp] theorem result_andThen (first : Probed α) (next : α → Probed β) :
    (first.andThen next).result = (next first.result).result := rfl

@[simp] theorem probes_andThen (first : Probed α) (next : α → Probed β) :
    (first.andThen next).probes = first.probes ++ (next first.result).probes := rfl

@[simp] theorem result_map (change : α → β) (probed : Probed α) :
    (probed.map change).result = change probed.result := rfl

@[simp] theorem probes_map (change : α → β) (probed : Probed α) :
    (probed.map change).probes = probed.probes := rfl

end Probed

end ContractAbi
