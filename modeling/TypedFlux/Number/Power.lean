/-
  Powers of the two bases that numbers are written in.

  Key definitions include:
    * `twoTo`
    * `tenTo`
-/

namespace TypedFlux

/- A power of two. -/
abbrev twoTo (n : Nat) : Nat :=
  Nat.pow 2 n

/- A power of ten. -/
abbrev tenTo (n : Nat) : Nat :=
  Nat.pow 10 n

end TypedFlux
