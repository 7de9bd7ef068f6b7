set_option autoImplicit false

namespace FunctionDiscovery.Search

variable {α : Type}

def bisect (xs : Array α) (test : α → Bool) : (fuel low high : Nat) → high ≤ xs.size → Nat
  | 0, low, _, _ => low
  | fuel + 1, low, high, bound =>
    if less : low < high then
      have inside : (low + high) / 2 < xs.size := by omega
      if test xs[(low + high) / 2] then bisect xs test fuel ((low + high) / 2 + 1) high bound
      else bisect xs test fuel low ((low + high) / 2) (by omega)
    else low

def partitionPoint (xs : Array α) (test : α → Bool) : Nat :=
  bisect xs test xs.size 0 xs.size (Nat.le_refl _)

end FunctionDiscovery.Search
