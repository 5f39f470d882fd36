import Mathlib.Data.List.Basic

/-! # Generated ids

`common/ids.js`: a request is known to HCM by what `nanoid` makes, behind a prefix of its kind.
-/

set_option autoImplicit false

namespace TimeOff

def newExternalRequestId (nano : String) : String := "ext_" ++ nano

/-- Is it an id that `newExternalRequestId` makes? -/
def isExternalRequestId (id : String) : Bool := "ext_".toList.isPrefixOf id.toList

theorem isExternalRequestId_new (nano : String) : isExternalRequestId (newExternalRequestId nano) = true := by
  rw [isExternalRequestId, newExternalRequestId, String.toList_append, List.isPrefixOf_iff_prefix]
  exact List.prefix_append _ _

theorem isExternalRequestId_ne {id : String} (generated : isExternalRequestId id = true) : id ≠ "" := by
  rintro rfl
  cases generated

end TimeOff
