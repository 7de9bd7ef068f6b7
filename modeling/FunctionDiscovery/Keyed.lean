import FunctionDiscovery.Address

set_option autoImplicit false

namespace FunctionDiscovery.Keyed

variable {α : Type}

def floor? (key : α → Address) (a : Address) (xs : List α) : Option α :=
  (xs.takeWhile fun x => key x ≤ a).getLast?

def insert (key : α → Address) (fresh : α) : List α → List α
  | [] => [fresh]
  | x :: rest =>
    if key fresh = key x then fresh :: rest
    else if key fresh < key x then fresh :: x :: rest
    else x :: insert key fresh rest

def insertBefore (key : α → Address) (fresh : α) : List α → List α
  | [] => [fresh]
  | x :: rest =>
    if key x < key fresh then x :: insertBefore key fresh rest else fresh :: x :: rest

end FunctionDiscovery.Keyed
