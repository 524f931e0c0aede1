/-
  Imghost.Web.Query — `urllib.parse.parse_qsl` and `urlencode`.

  A query is cut at its `&`s, and each part at its first `=`; empty parts are skipped, and
  a part without `=` has an empty value (`keep_blank_values=True`).

  - `parseQsl_urlencode`: what is encoded is parsed.
-/

import Imghost.Data.Trim
import Imghost.Model.Percent

namespace Imghost.Web

open Imghost.Data Imghost.Model

/-- One `name=value` of a query. -/
def parsePair (pair : List Char) : String × String :=
  let (name, _, value) := cut '=' pair
  (String.ofList (unquotePlus name), String.ofList (unquotePlus value))

/-- `parse_qsl(query, keep_blank_values=True)`. -/
def parseQsl (query : String) : List (String × String) := ((query.toList.splitOn '&').filter (· ≠ [])).map parsePair

/-- One item, as `urlencode` writes it. -/
def encodePair (item : String × String) : List Char := quotePlus item.1.toList ++ '=' :: quotePlus item.2.toList

/-- `urlencode(items, doseq=True)`, of texts. -/
def urlencode (items : List (String × String)) : String := String.ofList (['&'].intercalate (items.map encodePair))

theorem not_mem_quotePlus {c : Char} (hc : isQuotedChar c = false) (text : List Char) : c ∉ quotePlus text := by
  intro h
  rw [quotePlus_chars text c h] at hc
  cases hc

theorem parsePair_encodePair (item : String × String) : parsePair (encodePair item) = item := by
  rw [parsePair, encodePair, cut_append (not_mem_quotePlus (by decide) _)]
  simp only [unquotePlus_quotePlus, String.ofList_toList]

theorem encodePair_ne_nil (item : String × String) : encodePair item ≠ [] := by
  simp [encodePair]

/-- A character of an encoded query. -/
def isEncodedChar (c : Char) : Bool := isQuotedChar c || c == '=' || c == '&'

theorem encodePair_chars (item : String × String) : ∀ c ∈ encodePair item, isQuotedChar c = true ∨ c = '=' := by
  intro c hc
  rcases List.mem_append.mp hc with hc | hc
  · exact .inl (quotePlus_chars _ c hc)
  · rcases List.mem_cons.mp hc with hc | hc
    · exact .inr hc
    · exact .inl (quotePlus_chars _ c hc)

theorem urlencode_chars (items : List (String × String)) : ∀ c ∈ (urlencode items).toList, isEncodedChar c = true := by
  rw [urlencode, String.toList_ofList]
  induction items with
  | nil =>
    intro c hc
    cases hc
  | cons item items ih =>
    have hpair : ∀ c ∈ encodePair item, isEncodedChar c = true := by
      intro c hc
      rcases encodePair_chars item c hc with h | rfl
      · simp [isEncodedChar, h]
      · decide
    intro c hc
    cases items with
    | nil =>
      rw [List.map_singleton, List.intercalate_singleton] at hc
      exact hpair c hc
    | cons item' items =>
      rw [List.map_cons, List.map_cons, List.intercalate_cons_cons, List.mem_append, List.mem_append] at hc
      rcases hc with (hc | hc) | hc
      · exact hpair c hc
      · obtain rfl := List.mem_singleton.mp hc
        decide
      · exact ih c hc

/-- What is encoded is parsed. -/
theorem parseQsl_urlencode (items : List (String × String)) : parseQsl (urlencode items) = items := by
  rw [parseQsl, urlencode, String.toList_ofList]
  cases items with
  | nil => rfl
  | cons item items =>
    have hsplit : (['&'].intercalate ((item :: items).map encodePair)).splitOn '&' = (item :: items).map encodePair := by
      apply List.splitOn_intercalate
      · intro pair hpair hmem
        obtain ⟨item', -, rfl⟩ := List.mem_map.mp hpair
        rcases encodePair_chars item' '&' hmem with h | h
        · exact absurd h (by decide)
        · exact absurd h (by decide)
      · simp
    have hfilter : ((item :: items).map encodePair).filter (· ≠ []) = (item :: items).map encodePair := by
      rw [List.filter_eq_self]
      intro pair hpair
      obtain ⟨item', -, rfl⟩ := List.mem_map.mp hpair
      simpa using encodePair_ne_nil item'
    rw [hsplit, hfilter, List.map_map]
    conv_rhs => rw [← List.map_id (item :: items)]
    apply List.map_congr_left
    intro item' _
    exact parsePair_encodePair item'

theorem urlencode_ne_empty {items : List (String × String)} (h : items ≠ []) : urlencode items ≠ "" := by
  intro hempty
  have hparse := parseQsl_urlencode items
  rw [hempty] at hparse
  exact h hparse.symm

end Imghost.Web
