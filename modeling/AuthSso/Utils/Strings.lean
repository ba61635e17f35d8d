import Mathlib.Data.List.Basic
import Mathlib.Tactic.Common

/-!
# The string-slice helpers of `internal/utils`

The handlers and the validators test membership with these helpers. Their source is
not part of this repository's files; they are modelled from their names and from what
the tests of their callers print. `strings.EqualFold` is a library function, so the
case-insensitive membership takes it as a parameter.
-/
namespace AuthSso.Utils

/-- Modelled from the spec: `utils.IsStringInSlice`, exact membership. -/
def isStringInSlice (needle : String) (haystack : List String) : Bool :=
  haystack.contains needle

/-- Modelled from the spec: `utils.IsStringInSliceFold`, membership up to `EqualFold`. -/
def isStringInSliceFold (equalFold : String → String → Bool) (needle : String)
    (haystack : List String) : Bool :=
  haystack.any (equalFold needle)

/-- Modelled from the spec: `utils.IsStringSliceContainsAny`, a common element. -/
def isStringSliceContainsAny (needles haystack : List String) : Bool :=
  needles.any (haystack.contains ·)

@[simp] theorem isStringInSlice_eq (needle : String) (haystack : List String) :
    isStringInSlice needle haystack = decide (needle ∈ haystack) := by
  simp [isStringInSlice]

@[simp] theorem isStringInSliceFold_eq (equalFold : String → String → Bool) (needle : String)
    (haystack : List String) :
    isStringInSliceFold equalFold needle haystack =
      decide (∃ s ∈ haystack, equalFold needle s) := by
  rw [Bool.eq_iff_iff]
  simp [isStringInSliceFold]

@[simp] theorem isStringSliceContainsAny_eq (needles haystack : List String) :
    isStringSliceContainsAny needles haystack = decide (∃ s ∈ needles, s ∈ haystack) := by
  rw [Bool.eq_iff_iff]
  simp [isStringSliceContainsAny]

end AuthSso.Utils
