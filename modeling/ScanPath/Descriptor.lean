import ScanPath.Cause
import ScanPath.Digest
import ScanPath.Json.Printer

/-!
# Descriptors

A descriptor is the canonical JSON object of the parameters of a leaf, an
excluder, a mutator or a composition, with its kind under `type`.  Objects with
equal descriptors are taken for the same object; who built them never matters.
-/

namespace ScanPath

def typeField : String := "type"

structure Descriptor where
  value : Json
  deriving Inhabited

namespace Descriptor

instance : BEq Descriptor := ⟨fun first second => first.value == second.value⟩

/-- A field `type` among the parameters gives way to the kind. -/
def ofFields (kind : String) (fields : List (String × Json)) : Descriptor :=
  ⟨(Json.object (fields ++ [(typeField, .string kind)])).canonical⟩

def tagged (kind : String) (parameters : Json) : Except Cause Descriptor :=
  match parameters with
  | .object fields => .ok (ofFields kind fields)
  | other => .error (.descriptorShape kind other.sort)

def kind? (descriptor : Descriptor) : Option String :=
  match descriptor.value.field? typeField with
  | some (.string kind) => some kind
  | _ => none

def text (descriptor : Descriptor) : String := descriptor.value.text

def digest (descriptor : Descriptor) : String := Digest.ofText descriptor.value.canonicalText

/-- Keeps the items whose descriptor is neither in `seen` nor that of an earlier item. -/
def firstOccurrencesAfter (describe : α → Descriptor) : List Descriptor → List α → List α
  | _, [] => []
  | seen, item :: items =>
      if seen.any (· == describe item) then firstOccurrencesAfter describe seen items
      else item :: firstOccurrencesAfter describe (describe item :: seen) items

def firstOccurrences (describe : α → Descriptor) (items : List α) : List α :=
  firstOccurrencesAfter describe [] items

/-- Where a walk through a list of items stands: the descriptors of the items kept so far, these
items, and the number of duplicates that were dropped. -/
structure Sifting (α : Type) where
  seen : List Descriptor
  kept : List α
  dropped : Nat

def sift (describe : α → Descriptor) (sifting : Sifting α) (item : α) : Sifting α :=
  if sifting.seen.any (· == describe item) then { sifting with dropped := sifting.dropped + 1 }
  else ⟨sifting.seen ++ [describe item], sifting.kept ++ [item], sifting.dropped⟩

def sifted (describe : α → Descriptor) (items : List α) : Sifting α :=
  items.foldl (sift describe) ⟨[], [], 0⟩

end Descriptor

end ScanPath
