import PhiTransport.Api.JsonText
import PhiTransport.Base.Json.Record

/-!
# Members written by hand

The encoders of records write a comma, a quoted key and a colon as one literal
in front of each value. Such a literal opens a member of that key; behind a test
it opens one or stays away.
-/

namespace PhiTransport

open Octets Rfc8259

section

variable {key before a : Bytes} {v : Json}

theorem memberText_before (hb : before = jsonQuoted key ++ [colon]) (h : Text v a) :
    MemberText (key, v) (before ++ a) := by
  have hm := memberText_of (stringText_jsonQuoted key) h
  rw [hb, List.append_assoc]
  exact hm

theorem fieldText_before (hb : before = comma :: (jsonQuoted key ++ [colon])) (h : Text v a) :
    FieldText (key, some v) (before ++ a) := by
  rw [hb, List.cons_append]
  exact .member (memberText_before rfl h)

theorem fieldText_before_ite (hb : before = comma :: (jsonQuoted key ++ [colon])) (c : Prop)
    [Decidable c] (h : c → Text v a) :
    FieldText (key, if c then some v else none) (if c then before ++ a else []) := by
  by_cases hc : c
  · rw [if_pos hc, if_pos hc]
    exact fieldText_before hb (h hc)
  · rw [if_neg hc, if_neg hc]
    exact .absent key

end

/-! ## Nested objects -/

/-- On every text the API takes as an object the scan tells whether it has members. -/
theorem isEmptyJsonObject_payload {ms : List (Bytes × Json)} {t : Bytes} (h : PayloadText ms t) :
    isEmptyJsonObject t = ms.isEmpty := by
  rcases h with h | ⟨hblank, rfl⟩
  · rw [Bool.eq_iff_iff, isEmptyJsonObject_iff h, List.isEmpty_iff]
  · exact isEmptyJsonObject_blank hblank

theorem text_of_payload {ms : List (Bytes × Json)} {t : Bytes} (h : PayloadText ms t)
    (hne : (!ms.isEmpty) = true) : Text (.obj ms) t := by
  rcases h with h | ⟨-, rfl⟩
  · exact h
  · exact absurd hne (by decide)

end PhiTransport
