import Duroxide.Model.Orchestration
import Mathlib.Data.Char
import Mathlib.Data.List.Lex

/-! # Versioned orchestration registries

A registry maps a name to its versions in ascending order, with a policy for requests that name no
version. Version numbers come from the `semver` package, of which the runtime uses parsing,
rendering, the order and the three numbers.
-/

namespace Duroxide

/-- What the runtime uses of the `semver` package. -/
structure Semver where
  Version : Type
  decEq : DecidableEq Version
  parse : String → Option Version
  render : Version → String
  le : Version → Version → Bool
  major : Version → Nat
  minor : Version → Nat
  patch : Version → Nat

instance (semver : Semver) : DecidableEq semver.Version := semver.decEq

/-! ## A version syntax

Versions kept as their text: three numbers, and an optional pre-release that sorts below the release.
-/

/-- Split characters at a separator. -/
def splitChars (separator : Char) : List Char → List (List Char)
  | [] => [[]]
  | char :: rest =>
      match splitChars separator rest with
      | word :: words => if char = separator then [] :: word :: words else (char :: word) :: words
      | [] => [[char]]

def parseNumber (chars : List Char) : Option Nat :=
  if chars.isEmpty || !chars.all Char.isDigit || (chars.head? == some '0' && chars.length != 1) then none
  else some (chars.foldl (fun value char => 10 * value + (char.toNat - 48)) 0)

/-- The three numbers of a version text and what follows them. -/
def parseVersion (text : String) : Option ((Nat × Nat × Nat) × List Char) :=
  match splitChars '.' (text.toList.takeWhile (· != '-')) with
  | [major, minor, patch] => do
      return ((← parseNumber major, ← parseNumber minor, ← parseNumber patch), text.toList.dropWhile (· != '-'))
  | _ => none

def versionNumbers (text : String) : Nat × Nat × Nat := ((parseVersion text).map (·.1)).getD (0, 0, 0)

/-- Releases sort above their pre-releases, pre-releases by their characters. -/
def preReleaseLe : List Char → List Char → Bool
  | _, [] => true
  | [], _ :: _ => false
  | left, right => left ≤ right

def versionLe (left right : String) : Bool :=
  let (leftMajor, leftMinor, leftPatch) := versionNumbers left
  let (rightMajor, rightMinor, rightPatch) := versionNumbers right
  if leftMajor ≠ rightMajor then leftMajor < rightMajor
  else if leftMinor ≠ rightMinor then leftMinor < rightMinor
  else if leftPatch ≠ rightPatch then leftPatch < rightPatch
  else preReleaseLe (left.toList.dropWhile (· != '-')) (right.toList.dropWhile (· != '-'))

def textSemver : Semver where
  Version := String
  decEq := inferInstance
  parse text := (parseVersion text).map fun _ => text
  render := id
  le := versionLe
  major version := (versionNumbers version).1
  minor version := (versionNumbers version).2.1
  patch version := (versionNumbers version).2.2

example : textSemver.le "1.0.0-alpha" "1.0.0" ∧ ¬ textSemver.le "1.0.0" "1.0.0-alpha" ∧
    textSemver.le "1.9.0" "1.10.0" ∧ textSemver.parse "1.0" = none := by
  decide

/-- An inclusive range of versions. -/
structure SemverRange (semver : Semver) where
  min : semver.Version
  max : semver.Version

def SemverRange.contains {semver : Semver} (range : SemverRange semver) (version : semver.Version) : Bool :=
  semver.le range.min version && semver.le version range.max

/-- A capability filter accepts what any of its ranges contains. -/
def isCompatible {semver : Semver} (supported : List (SemverRange semver)) (version : semver.Version) : Bool :=
  supported.any (·.contains version)

inductive VersionPolicy (semver : Semver) where
  | latest
  | exact (version : semver.Version)

/-- Handlers by name, each name's versions in ascending order. -/
structure Registry (semver : Semver) where
  inner : String → List (semver.Version × OrchestrationHandler)
  distinct : ∀ name, ((inner name).map (·.1)).Nodup
  policy : String → Option (VersionPolicy semver)

namespace Registry

variable {semver : Semver}

def resolveHandlerExact (registry : Registry semver) (name : String) (version : semver.Version) :
    Option OrchestrationHandler :=
  ((registry.inner name).find? (·.1 = version)).map (·.2)

/-- Resolve by policy; a name without a policy takes its latest version. -/
def resolveHandler (registry : Registry semver) (name : String) : Option (semver.Version × OrchestrationHandler) :=
  match (registry.policy name).getD .latest with
  | .latest => (registry.inner name).getLast?
  | .exact version => (registry.resolveHandlerExact name version).map fun handler => (version, handler)

def setVersionPolicy (registry : Registry semver) (name : String) (policy : VersionPolicy semver) :
    Registry semver :=
  { registry with policy := Function.update registry.policy name (some policy) }

/-- Whatever the policy picks is the handler registered under that version. -/
theorem resolveHandlerExact_of_resolveHandler {registry : Registry semver} {name : String} {version : semver.Version}
    {handler : OrchestrationHandler} (resolved : registry.resolveHandler name = some (version, handler)) :
    registry.resolveHandlerExact name version = some handler := by
  unfold resolveHandler at resolved
  split at resolved
  · have member : (version, handler) ∈ registry.inner name := List.mem_of_getLast? resolved
    rcases found : (registry.inner name).find? (·.1 = version) with _ | ⟨other, otherHandler⟩
    · exact absurd (decide_eq_true rfl) (List.find?_eq_none.mp found _ member)
    · have same : other = version := by simpa using List.find?_some found
      have entries : (other, otherHandler) = (version, handler) :=
        List.inj_on_of_nodup_map (registry.distinct name) (List.mem_of_find?_eq_some found) member same
      rw [resolveHandlerExact, found]
      exact congrArg (fun entry => some entry.2) entries
  · obtain ⟨found, exact, same⟩ := Option.map_eq_some_iff.mp resolved
    cases same
    exact exact

end Registry

end Duroxide
