import Mathlib.Data.List.Basic
import Mathlib.Data.List.Induction

/-!
# A register that follows a key, and a mark that is set and cleared

The register holds a value, and takes the next one only when its key is another one. What it holds
in the end is the first value of the last block of values with one key. A mark is there in the end
when something set it and nothing cleared it since.
-/

namespace Registers

universe u v

variable {α : Type u} {κ : Type v} [DecidableEq κ] (key : α → κ)

variable {key}

section

variable {State Event : Type*} {step : State → Event → State} {Sets Clears : Event → Prop}

end

end Registers
