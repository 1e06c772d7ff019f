import Apicrud.Seed

/-! # Which mailboxes `identity_normalize` identifies

An address is a user, an at sign and a domain.  `identityNormalize_eq` gives its normal form: the user
in lower case up to the first plus sign, and the domain in lower case; for the domains that the pattern
`.*@gmail.com$` matches, the user without dots, at `gmail.com`.

The dot of the pattern matches any character, so a domain such as `gmail-com` is rewritten too.  Two
addresses are identified as their mailboxes are, exactly if neither has such a domain
(`identifies_iff`). -/

namespace Apicrud

open Relational

namespace Lib

/-- What the library does on ASCII: `str.lower` lower-cases the letters, and `re.I` compares two
characters by their lower case. -/
structure AsciiCase (lib : Lib) : Prop where
  lower : ∀ l : List Char, (∀ c ∈ l, c.toNat < 128) →
    lib.lower (String.ofList l) = String.ofList (l.map Char.toLower)
  fold : ∀ a b : Char, a.toNat < 128 → b.toNat < 128 →
    (lib.fold a = lib.fold b ↔ a.toLower = b.toLower)

/-- Printable ASCII with one at sign. -/
def IsAddress (s : String) : Prop :=
  (∀ c ∈ s.toList, 32 ≤ c.toNat ∧ c.toNat ≤ 126) ∧ s.toList.count '@' = 1

/-- What stands before the at sign. -/
def userOf (s : String) : List Char := s.toList.takeWhile (· ≠ '@')

/-- What stands behind it. -/
def domainOf (s : String) : List Char := (s.toList.dropWhile (· ≠ '@')).drop 1

/-- The text in lower case. -/
def lowered (l : List Char) : List Char := l.map Char.toLower

/-- The mailbox of an address: the lower-case user up to the first plus sign, without its dots at
`gmail.com`, and the lower-case domain. -/
def mailbox (s : String) : List Char × List Char :=
  let user := (lowered (userOf s)).takeWhile (· ≠ '+')
  (if lowered (domainOf s) = "gmail.com".toList then user.filter (· ≠ '.') else user,
    lowered (domainOf s))

variable {lib : Lib} {u d : List Char}

/-! ### Lower case -/

theorem toLower_eq_iff {c x : Char} (hx : x.isAlpha = false) : c.toLower = x ↔ c = x := by
  constructor
  · rintro rfl
    rw [Char.isAlpha_toLower_eq_isAlpha, Char.isAlpha, Bool.or_eq_false_iff] at hx
    exact (Char.toLower_eq_of_not_isUpper (by simp [hx.1])).symm
  · rintro rfl
    rw [Char.isAlpha, Bool.or_eq_false_iff] at hx
    exact Char.toLower_eq_of_not_isUpper (by simp [hx.1])

theorem mem_lowered {x : Char} (hx : x.isAlpha = false) {l : List Char} : x ∈ lowered l ↔ x ∈ l := by
  rw [lowered, List.mem_map]
  constructor
  · rintro ⟨c, hc, heq⟩
    exact (toLower_eq_iff hx).mp heq ▸ hc
  · exact fun h => ⟨x, h, (toLower_eq_iff hx).mpr rfl⟩

theorem lowered_lowered (l : List Char) : lowered (lowered l) = lowered l := by
  rw [lowered, lowered, List.map_map]
  exact List.map_congr_left fun c _ => Char.toLower_toLower_eq_toLower c

/-- Cutting at a character that is no letter and lower-casing can be exchanged. -/
theorem lowered_takeWhile {x : Char} (hx : x.isAlpha = false) (l : List Char) :
    (lowered l).takeWhile (· ≠ x) = lowered (l.takeWhile (· ≠ x)) := by
  rw [lowered, List.takeWhile_map]
  refine congrArg lowered (congrArg (List.takeWhile · l) (funext fun c => ?_))
  simp [toLower_eq_iff hx]

theorem lowered_filter {x : Char} (hx : x.isAlpha = false) (l : List Char) :
    (lowered l).filter (· ≠ x) = lowered (l.filter (· ≠ x)) := by
  rw [lowered, List.filter_map]
  refine congrArg lowered (congrArg (List.filter · l) (funext fun c => ?_))
  simp [toLower_eq_iff hx]

/-- Cutting at one character and leaving another one out can be exchanged. -/
theorem takeWhile_filter {x y : Char} (hxy : x ≠ y) (l : List Char) :
    (l.filter (· ≠ y)).takeWhile (· ≠ x) = (l.takeWhile (· ≠ x)).filter (· ≠ y) := by
  induction l with
  | nil => rfl
  | cons c l ih =>
      by_cases hy : c = y
      · subst hy
        rw [List.filter_cons_of_neg (by simp), List.takeWhile_cons_of_pos (by simpa using Ne.symm hxy),
          List.filter_cons_of_neg (by simp), ih]
      · rw [List.filter_cons_of_pos (by simpa using hy)]
        by_cases hx : c = x
        · rw [List.takeWhile_cons_of_neg (by simp [hx]), List.takeWhile_cons_of_neg (by simp [hx]),
            List.filter_nil]
        · rw [List.takeWhile_cons_of_pos (by simpa using hx),
            List.takeWhile_cons_of_pos (by simpa using hx),
            List.filter_cons_of_pos (by simpa using hy), ih]

theorem printable_toLower {c : Char} (h : 32 ≤ c.toNat ∧ c.toNat ≤ 126) :
    32 ≤ c.toLower.toNat ∧ c.toLower.toNat ≤ 126 := by
  by_cases hc : c.isUpper
  · have hletter : 65 ≤ c.toNat ∧ c.toNat ≤ 90 := by
      simpa [Char.isUpper, UInt32.le_iff_toNat_le] using hc
    have hvalid : (c.toNat + 32).isValidChar := by
      unfold Nat.isValidChar
      omega
    rw [Char.toLower_eq_of_isUpper hc, Char.toNat_ofNat, if_pos hvalid]
    omega
  · rwa [Char.toLower_eq_of_not_isUpper hc]

/-! ### The pattern -/

/-- The domain reads like `gmail.com`, with any character in the place of the dot. -/
def GmailLike (d : List Char) : Prop :=
  (lowered d).take 5 = "gmail".toList ∧ (lowered d).drop 6 = "com".toList

instance (d : List Char) : Decidable (GmailLike d) := inferInstanceAs (Decidable (_ ∧ _))

theorem gmailLike_iff : GmailLike d ↔ ∃ x, lowered d = "gmail".toList ++ x :: "com".toList := by
  unfold GmailLike
  constructor
  · rintro ⟨hleft, hright⟩
    have hlen := congrArg List.length hright
    rw [List.length_drop] at hlen
    have hlt : 5 < (lowered d).length := by
      have : "com".toList.length = 3 := by decide
      omega
    refine ⟨(lowered d)[5], ?_⟩
    rw [← hleft, ← hright, ← List.drop_eq_getElem_cons hlt, List.take_append_drop]
  · rintro ⟨x, hx⟩
    rw [hx]
    exact ⟨by simp, by simp⟩

theorem parse_gmail : Regex.parse ".*@gmail.com$" =
    some (.seq (.star .any) (Regex.literal "@gmail".toList (.seq .any
      (Regex.literal "com".toList (.seq .eol .eps))))) := by
  decide +kernel

/-- `re.I` compares texts by their lower case. -/
theorem AsciiCase.map_fold (hlib : AsciiCase lib) {p l : List Char} (hp : ∀ c ∈ p, c.toNat < 128)
    (hl : ∀ c ∈ l, c.toNat < 128) : p.map lib.fold = l.map lib.fold ↔ lowered p = lowered l := by
  induction p generalizing l with
  | nil => simp [lowered, eq_comm]
  | cons c p ih =>
      cases l with
      | nil => simp [lowered]
      | cons x l =>
          rw [List.forall_mem_cons] at hp hl
          rw [lowered, lowered, List.map_cons, List.map_cons, List.map_cons, List.map_cons,
            List.cons.injEq, List.cons.injEq, hlib.fold c x hp.1 hl.1, ih hp.2 hl.2]
          rfl

/-- The literals of the pattern are lower-case ASCII. -/
theorem at_ascii : (∀ c ∈ "@gmail".toList, c.toNat < 128) ∧
    lowered "@gmail".toList = '@' :: "gmail".toList ∧ (∀ c ∈ "com".toList, c.toNat < 128) ∧
    lowered "com".toList = "com".toList := ⟨by simp, by decide, by simp, by decide⟩

/-- The pattern of `identity_normalize` matches exactly the addresses of such a domain. -/
theorem isMatch_iff (hlib : AsciiCase lib) (hu : '@' ∉ u) (hd : '@' ∉ d)
    (hascii : ∀ c ∈ u ++ '@' :: d, 32 ≤ c.toNat ∧ c.toNat ≤ 126) :
    Regex.isMatch lib.fold ".*@gmail.com$" (String.ofList (u ++ '@' :: d)) = some true ↔
      GmailLike d := by
  rw [gmailLike_iff]
  have hlt : ∀ c ∈ u ++ '@' :: d, c.toNat < 128 := fun c hc => by have := hascii c hc; omega
  have hline : '\n' ∉ u ++ '@' :: d := fun h => absurd (hascii _ h).1 (by decide)
  rw [Regex.isMatch, parse_gmail, Option.map_some, String.toList_ofList, Option.some.injEq,
    Bool.not_eq_true', List.isEmpty_eq_false_iff_exists_mem]
  rw [Regex.exists_ends_wild hline]
  constructor
  · rintro ⟨a, p, x, q, hs, hp, hq⟩
    have hparts : ∀ c, c ∈ a ∨ c ∈ p ∨ c = x ∨ c ∈ q → c.toNat < 128 := by
      intro c hc
      refine hlt c ?_
      rw [hs]
      simpa using hc
    rw [hlib.map_fold (fun c hc => hparts c (Or.inr (Or.inl hc))) at_ascii.1, at_ascii.2.1] at hp
    rw [hlib.map_fold (fun c hc => hparts c (Or.inr (Or.inr (Or.inr hc)))) at_ascii.2.2.1,
      at_ascii.2.2.2] at hq
    cases p with
    | nil => cases hp
    | cons c p =>
        obtain ⟨hat, hp'⟩ := List.cons.inj hp
        rw [toLower_eq_iff (by decide)] at hat
        subst hat
        -- the at sign of the pattern is the one of the address
        rw [List.cons_append] at hs
        obtain ⟨-, -, rfl⟩ := (List.append_cons_inj_of_notMem hu hd).mp hs
        refine ⟨x.toLower, ?_⟩
        rw [lowered, List.map_append, List.map_cons]
        exact congrArg₂ (· ++ x.toLower :: ·) hp' hq
  · rintro ⟨x, hx⟩
    obtain ⟨p, t, rfl, hp, ht⟩ := List.map_eq_append_iff.mp hx
    obtain ⟨y, q, rfl, -, hq⟩ := List.map_eq_cons_iff.mp ht
    refine ⟨u, '@' :: p, y, q, by simp, ?_, ?_⟩
    · rw [hlib.map_fold (fun c hc => hlt c ?_) at_ascii.1, at_ascii.2.1]
      · exact congrArg ('@' :: ·) hp
      · rw [List.mem_append, ← List.cons_append, List.mem_append]
        exact Or.inr (Or.inl hc)
    · rw [hlib.map_fold (fun c hc => hlt c ?_) at_ascii.2.2.1, at_ascii.2.2.2]
      · exact hq
      · simp [hc]

/-! ### The normal form -/

/-- The address in its normal form, as a user and a domain. -/
def normalForm (u d : List Char) : List Char × List Char :=
  let user := (lowered u).takeWhile (· ≠ '+')
  if GmailLike d then (user.filter (· ≠ '.'), "gmail.com".toList) else (user, lowered d)

/-- The last step of `identity_normalize`: the user is cut, and the whole put in lower case. -/
theorem lower_cut (hlib : AsciiCase lib) (hu : ∀ c ∈ u, c.toNat < 128)
    (hd : ∀ c ∈ d, c.toNat < 128) :
    lib.lower ((Text.split (String.ofList u) '+').headD "" ++ "@" ++ String.ofList d) =
      String.ofList ((lowered u).takeWhile (· ≠ '+') ++ '@' :: lowered d) := by
  have htext : (Text.split (String.ofList u) '+').headD "" ++ "@" ++ String.ofList d =
      String.ofList (u.takeWhile (· ≠ '+') ++ '@' :: d) := by
    rw [Text.split_headD]
    apply String.toList_injective
    simp
  rw [htext, hlib.lower, List.map_append, List.map_cons, lowered_takeWhile (by decide)]
  · rfl
  · intro c hc
    rcases List.mem_append.mp hc with hc | hc
    · exact hu c (List.takeWhile_subset _ hc)
    · rcases List.mem_cons.mp hc with rfl | hc
      · simp
      · exact hd c hc

/-- What `identity_normalize` gives. -/
theorem identityNormalize_eq (hlib : AsciiCase lib) (hu : '@' ∉ u) (hd : '@' ∉ d)
    (hascii : ∀ c ∈ u ++ '@' :: d, 32 ≤ c.toNat ∧ c.toNat ≤ 126) :
    lib.identityNormalize (.str (String.ofList (u ++ '@' :: d))) =
      .str (String.ofList ((normalForm u d).1 ++ '@' :: (normalForm u d).2)) := by
  have hne : (Val.str (String.ofList (u ++ '@' :: d))).truthy = true := by
    simp [Val.truthy]
  have hhead : (Text.split (String.ofList (u ++ '@' :: d)) '@').headD "" = String.ofList u := by
    rw [Text.split_append hu hd]
    rfl
  have hu' : ∀ c ∈ u, c.toNat < 128 := fun c hc => by
    have := hascii c (List.mem_append_left _ hc)
    omega
  have hd' : ∀ c ∈ d, c.toNat < 128 := fun c hc => by
    have := hascii c (List.mem_append_right _ (List.mem_cons_of_mem _ hc))
    omega
  rw [identityNormalize, if_pos hne]
  simp only [Val.text_str, hhead]
  by_cases hlike : GmailLike d
  · have htext : Text.replace (String.ofList u) '.' "" ++ "@gmail.com" =
        String.ofList (u.filter (· ≠ '.') ++ '@' :: "gmail.com".toList) := by
      rw [Text.replace_empty]
      apply String.toList_injective
      simp
    have hplain : '@' ∉ u.filter (· ≠ '.') := fun h => hu (List.mem_filter.mp h).1
    rw [if_pos ((isMatch_iff hlib hu hd hascii).mpr hlike), htext, Text.split_append hplain (by decide)]
    simp only
    rw [lower_cut hlib (fun c hc => hu' c (List.mem_filter.mp hc).1) (by simp), normalForm, if_pos hlike,
      ← lowered_filter (by decide), takeWhile_filter (by decide)]
    rfl
  · rw [if_neg fun h => hlike ((isMatch_iff hlib hu hd hascii).mp h), Text.split_append hu hd]
    simp only
    rw [lower_cut hlib hu' hd', normalForm, if_neg hlike]

/-! ### Addresses -/

/-- An address is a user, an at sign and a domain. -/
theorem IsAddress.parts {s : String} (h : IsAddress s) : ∃ u d, s = String.ofList (u ++ '@' :: d) ∧
    '@' ∉ u ∧ '@' ∉ d ∧ ∀ c ∈ u ++ '@' :: d, 32 ≤ c.toNat ∧ c.toNat ≤ 126 := by
  obtain ⟨hprint, hcount⟩ := h
  have hmem : '@' ∈ s.toList := List.count_pos_iff.mp (by omega)
  obtain ⟨u, d, hs, hu⟩ := List.eq_append_cons_of_mem hmem
  rw [hs, List.count_append, List.count_cons_self, List.count_eq_zero_of_not_mem hu] at hcount
  have hd : '@' ∉ d := List.count_eq_zero.mp (by omega)
  refine ⟨u, d, ?_, hu, hd, hs ▸ hprint⟩
  rw [← hs, String.ofList_toList]

/-- Where the user holds no at sign, the first one is behind it. -/
theorem takeWhile_at (hu : '@' ∉ u) : (u ++ '@' :: d).takeWhile (· ≠ '@') = u ∧
    (u ++ '@' :: d).dropWhile (· ≠ '@') = '@' :: d := by
  have hall : ∀ c ∈ u, decide (c ≠ '@') = true := fun c hc => decide_eq_true fun h => hu (h ▸ hc)
  rw [List.takeWhile_append_of_pos hall, List.dropWhile_append_of_pos hall,
    List.takeWhile_cons_of_neg (by simp), List.dropWhile_cons_of_neg (by simp), List.append_nil]
  exact ⟨rfl, rfl⟩

theorem userOf_ofList (hu : '@' ∉ u) : userOf (String.ofList (u ++ '@' :: d)) = u := by
  rw [userOf, String.toList_ofList]
  exact (takeWhile_at hu).1

theorem domainOf_ofList (hu : '@' ∉ u) : domainOf (String.ofList (u ++ '@' :: d)) = d := by
  rw [domainOf, String.toList_ofList, (takeWhile_at hu).2, List.drop_succ_cons, List.drop_zero]

/-- The domain that the code writes. -/
theorem gmail_domain : '@' ∉ "gmail.com".toList ∧
    (∀ c ∈ '@' :: "gmail.com".toList, 32 ≤ c.toNat ∧ c.toNat ≤ 126) ∧
    lowered "gmail.com".toList = "gmail.com".toList :=
  ⟨by decide, by simp, by decide⟩

/-- The parts of the normal form: in lower case, without a second at sign, and normal themselves. -/
theorem normalForm_plain (hu : '@' ∉ u) (hd : '@' ∉ d) :
    '@' ∉ (normalForm u d).1 ∧ '@' ∉ (normalForm u d).2 := by
  have huser : '@' ∉ (lowered u).takeWhile (· ≠ '+') := fun h =>
    hu ((mem_lowered (by decide)).mp (List.takeWhile_subset _ h))
  unfold normalForm
  simp only
  split_ifs
  · exact ⟨fun h => huser (List.mem_filter.mp h).1, gmail_domain.1⟩
  · exact ⟨huser, fun h => hd ((mem_lowered (by decide)).mp h)⟩

theorem normalForm_printable (hascii : ∀ c ∈ u ++ '@' :: d, 32 ≤ c.toNat ∧ c.toNat ≤ 126) :
    ∀ c ∈ (normalForm u d).1 ++ '@' :: (normalForm u d).2, 32 ≤ c.toNat ∧ c.toNat ≤ 126 := by
  have hlow : ∀ l ⊆ u ++ '@' :: d, ∀ c ∈ lowered l, 32 ≤ c.toNat ∧ c.toNat ≤ 126 := by
    intro l hl c hc
    obtain ⟨x, hx, rfl⟩ := List.mem_map.mp hc
    exact printable_toLower (hascii x (hl hx))
  have huser : ∀ c ∈ (lowered u).takeWhile (· ≠ '+'), 32 ≤ c.toNat ∧ c.toNat ≤ 126 :=
    fun c hc => hlow u (List.subset_append_left _ _) c (List.takeWhile_subset _ hc)
  unfold normalForm
  simp only
  split_ifs
  · intro c hc
    rcases List.mem_append.mp hc with hc | hc
    · exact huser c (List.mem_filter.mp hc).1
    · exact gmail_domain.2.1 c hc
  · intro c hc
    rcases List.mem_append.mp hc with hc | hc
    · exact huser c hc
    · rcases List.mem_cons.mp hc with rfl | hc
      · simp
      · exact hlow d (fun x hx => by simp [hx]) c hc

theorem gmailLike_lowered : GmailLike (lowered d) ↔ GmailLike d := by
  rw [GmailLike, lowered_lowered, GmailLike]

/-- A user and a domain that `identity_normalize` leaves as they are. -/
structure Normal (u d : List Char) : Prop where
  user : lowered u = u
  plus : '+' ∉ u
  domain : lowered d = d
  gmail : GmailLike d → d = "gmail.com".toList ∧ '.' ∉ u

theorem Normal.normalForm_eq (h : Normal u d) : normalForm u d = (u, d) := by
  have hcut : u.takeWhile (· ≠ '+') = u :=
    List.takeWhile_eq_self_iff.mpr fun c hc => decide_eq_true fun heq => h.plus (heq ▸ hc)
  unfold normalForm
  rw [h.user, h.domain, hcut]
  simp only
  split_ifs with hlike
  · obtain ⟨rfl, hdots⟩ := h.gmail hlike
    have hfilter : u.filter (· ≠ '.') = u :=
      List.filter_eq_self.mpr fun c hc => decide_eq_true fun heq => hdots (heq ▸ hc)
    rw [hfilter]
  · rfl

theorem normalForm_normal (u d : List Char) : Normal (normalForm u d).1 (normalForm u d).2 := by
  have hlow : lowered ((lowered u).takeWhile (· ≠ '+')) = (lowered u).takeWhile (· ≠ '+') := by
    rw [lowered_takeWhile (by decide), lowered_lowered]
  have hplus : '+' ∉ (lowered u).takeWhile (· ≠ '+') := fun h => by
    simpa using List.mem_takeWhile_imp h
  unfold normalForm
  simp only
  split_ifs with hlike
  · refine ⟨?_, fun h => hplus (List.mem_filter.mp h).1, gmail_domain.2.2, fun _ => ⟨rfl, ?_⟩⟩
    · rw [← lowered_filter (by decide), hlow]
    · intro h
      simpa using (List.mem_filter.mp h).2
  · exact ⟨hlow, hplus, lowered_lowered d, fun h => absurd (gmailLike_lowered.mp h) hlike⟩

/-! ### The same mailbox -/

/-- The domain only looks like `gmail.com`: another character stands in the place of the dot. -/
def Lookalike (s : String) : Prop :=
  GmailLike (domainOf s) ∧ lowered (domainOf s) ≠ "gmail.com".toList

instance (s : String) : Decidable (Lookalike s) := inferInstanceAs (Decidable (_ ∧ _))

variable (lib)

/-- `identity_normalize` identifies the mailboxes of two addresses. -/
structure Identifies (x y : String) : Prop where
  idempotent : ∀ s ∈ [x, y], lib.identityNormalize (lib.identityNormalize (.str s)) =
    lib.identityNormalize (.str s)
  domain : ∀ s ∈ [x, y],
    lowered (domainOf (lib.identityNormalize (.str s)).text) = lowered (domainOf s)
  same : lib.identityNormalize (.str x) = lib.identityNormalize (.str y) ↔ mailbox x = mailbox y

variable {lib}

theorem identityNormalize_idempotent (hlib : AsciiCase lib) {s : String} (h : IsAddress s) :
    lib.identityNormalize (lib.identityNormalize (.str s)) = lib.identityNormalize (.str s) := by
  obtain ⟨u, d, rfl, hu, hd, hascii⟩ := h.parts
  obtain ⟨hu', hd'⟩ := normalForm_plain hu hd
  rw [identityNormalize_eq hlib hu hd hascii,
    identityNormalize_eq hlib hu' hd' (normalForm_printable hascii),
    (normalForm_normal u d).normalForm_eq]

/-- The domain is kept, up to case, unless it only looks like `gmail.com`. -/
theorem domain_kept_iff (hlib : AsciiCase lib) {s : String} (h : IsAddress s) :
    lowered (domainOf (lib.identityNormalize (.str s)).text) = lowered (domainOf s) ↔ ¬ Lookalike s := by
  obtain ⟨u, d, rfl, hu, hd, hascii⟩ := h.parts
  rw [identityNormalize_eq hlib hu hd hascii, Val.text_str, domainOf_ofList (normalForm_plain hu hd).1,
    (normalForm_normal u d).domain, Lookalike, domainOf_ofList hu, normalForm]
  split_ifs with hlike
  · rw [eq_comm]
    simp [hlike]
  · simp [hlike]

/-- Elsewhere the normal form is the mailbox. -/
theorem normalForm_eq_mailbox (hu : '@' ∉ u) (h : ¬ Lookalike (String.ofList (u ++ '@' :: d))) :
    normalForm u d = mailbox (String.ofList (u ++ '@' :: d)) := by
  rw [Lookalike, domainOf_ofList hu] at h
  rw [mailbox, userOf_ofList hu, domainOf_ofList hu, normalForm]
  by_cases hlike : GmailLike d
  · have hgmail : lowered d = "gmail.com".toList := by
      by_contra hne
      exact h ⟨hlike, hne⟩
    rw [if_pos hlike, if_pos hgmail, hgmail]
  · have hother : lowered d ≠ "gmail.com".toList := fun heq =>
      hlike (gmailLike_iff.mpr ⟨'.', by rw [heq]; rfl⟩)
    rw [if_neg hlike, if_neg hother]

/-- Two addresses are identified as their mailboxes are, exactly if neither domain only looks like
`gmail.com`. -/
theorem identifies_iff (hlib : AsciiCase lib) {x y : String} (hx : IsAddress x) (hy : IsAddress y) :
    Identifies lib x y ↔ ¬ Lookalike x ∧ ¬ Lookalike y := by
  constructor
  · intro h
    exact ⟨(domain_kept_iff hlib hx).mp (h.domain x (by simp)),
      (domain_kept_iff hlib hy).mp (h.domain y (by simp))⟩
  · rintro ⟨hlx, hly⟩
    refine ⟨?_, ?_, ?_⟩
    · exact List.forall_mem_cons.mpr ⟨identityNormalize_idempotent hlib hx,
        List.forall_mem_singleton.mpr (identityNormalize_idempotent hlib hy)⟩
    · exact List.forall_mem_cons.mpr ⟨(domain_kept_iff hlib hx).mpr hlx,
        List.forall_mem_singleton.mpr ((domain_kept_iff hlib hy).mpr hly)⟩
    · obtain ⟨u, d, rfl, hu, hd, hascii⟩ := hx.parts
      obtain ⟨u', d', rfl, hu', hd', hascii'⟩ := hy.parts
      obtain ⟨hfu, hfd⟩ := normalForm_plain hu hd
      rw [identityNormalize_eq hlib hu hd hascii, identityNormalize_eq hlib hu' hd' hascii',
        ← normalForm_eq_mailbox hu hlx, ← normalForm_eq_mailbox hu' hly, Val.str.injEq,
        String.ofList_inj, List.append_cons_inj_of_notMem hfu hfd, Prod.ext_iff]
      simp

theorem seed_asciiCase : AsciiCase Seed.lib where
  lower l _ := by
    change String.ofList ((String.ofList l).toList.map Char.toLower) = _
    rw [String.toList_ofList]
  fold _ _ _ _ := Iff.rfl

/-- Dots, tags and letter case make no other mailbox at `gmail.com`. -/
theorem dotted_identified : Identifies Seed.lib "Fred.Smith+news@GMail.com" "fredsmith@gmail.com" ∧
    mailbox "Fred.Smith+news@GMail.com" = mailbox "fredsmith@gmail.com" :=
  ⟨(identifies_iff seed_asciiCase ⟨by simp, by decide⟩ ⟨by simp, by decide⟩).mpr (by decide +kernel),
    by decide +kernel⟩

/-- The mailboxes of two domains are merged. -/
theorem lookalike_merged : AsciiCase Seed.lib ∧ IsAddress "fred@gmail-com" ∧
    IsAddress "fred@gmail.com" ∧ mailbox "fred@gmail-com" ≠ mailbox "fred@gmail.com" ∧
    Seed.lib.identityNormalize (.str "fred@gmail-com") =
      Seed.lib.identityNormalize (.str "fred@gmail.com") ∧
    ¬ Identifies Seed.lib "fred@gmail-com" "fred@gmail.com" := by
  have hsame : Seed.lib.identityNormalize (.str "fred@gmail-com") =
      Seed.lib.identityNormalize (.str "fred@gmail.com") := by decide +kernel
  have hdiffer : mailbox "fred@gmail-com" ≠ mailbox "fred@gmail.com" := by decide +kernel
  exact ⟨seed_asciiCase, ⟨by simp, by decide⟩, ⟨by simp, by decide⟩, hdiffer, hsame,
    fun h => hdiffer (h.same.mp hsame)⟩

end Lib

end Apicrud
