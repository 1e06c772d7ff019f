import Apicrud.FindPaging
import Apicrud.Seed
import Apicrud.TrashFind

/-! # Paging through deleted records

Following `cursor_next` from no cursor returns every disabled record that the session may see, once
(`Trashcan.paging_complete`): a page is a page through the sections of `Paging`, one section for each
resource that is asked.  From a cursor whose offset is no longer below the number of records of its
resource, the offset goes on to the resources behind it, and hides the first of them
(`Trashcan.later_returned_iff`). -/

namespace Apicrud

open Relational

namespace Trashcan

/-! ### Names and cursors -/

theorem className_shape (m : Model) :
    ':' ∉ m.className.toList ∧ ∃ c cs, m.className.toList = c :: cs ∧ '0' ≤ c := by
  cases m <;> exact ⟨by decide, _, _, rfl, by decide⟩

theorem toUpper_of_lt {c : Char} (h : c < '0') : c.toUpper = c := by
  unfold Char.toUpper
  have hlt : c.val < 48 := h
  rw [dif_neg]
  rintro ⟨hle, -⟩
  have hle : (97 : UInt32) ≤ c.val := hle
  rw [UInt32.lt_iff_toNat_lt] at hlt
  rw [UInt32.le_iff_toNat_le] at hle
  exact absurd (hle.trans_lt hlt) (by decide)

/-- The name of the model of a resource is the capitalised one of the resource. -/
theorem className_of_modelFor {resource : String} {m : Model} (h : modelFor resource = some m) :
    resource = "apikey" ∨ m.className = Text.capitalize resource := by
  unfold modelFor at h
  split_ifs at h with hapikey
  · exact Or.inl hapikey
  · have hfound := List.find?_some h
    exact Or.inr (beq_iff_eq.mp hfound)

/-- A character without a case that no model's name has is in no name of a resource. -/
theorem not_mem_of_modelFor {resource : String} {m : Model} (h : modelFor resource = some m) {x : Char}
    (hupper : x.toUpper = x) (hlower : x.toLower = x) (hclass : ∀ m : Model, x ∉ m.className.toList)
    (hapikey : x ∉ "apikey".toList) : x ∉ resource.toList := by
  rcases className_of_modelFor h with rfl | hname
  · exact hapikey
  · intro hmem
    apply hclass m
    rw [hname, Text.capitalize]
    cases hchars : resource.toList with
    | nil =>
        rw [hchars] at hmem
        cases hmem
    | cons d ds =>
        rw [hchars] at hmem
        simp only [String.toList_ofList]
        rcases List.mem_cons.mp hmem with rfl | hmem
        · rw [hupper]
          exact List.mem_cons_self
        · refine List.mem_cons_of_mem _ ?_
          rw [← hlower]
          exact List.mem_map_of_mem hmem

/-- The name of a resource that has a model starts behind the digits and holds no colon. -/
theorem name_of_modelFor {resource : String} {m : Model} (h : modelFor resource = some m) :
    ':' ∉ resource.toList ∧ "0" ≤ resource := by
  refine ⟨not_mem_of_modelFor h rfl rfl (fun m => (className_shape m).1) (by decide), ?_⟩
  rcases className_of_modelFor h with rfl | hname
  · exact (by decide : "0" ≤ "apikey")
  · obtain ⟨-, c, cs, hclass, hc⟩ := className_shape m
    cases hchars : resource.toList with
    | nil =>
        rw [Text.capitalize, hchars] at hname
        rw [hname] at hclass
        cases hclass
    | cons d ds =>
        have hupper : c :: cs = d.toUpper :: ds.map Char.toLower := by
          rw [← hclass, hname, Text.capitalize, hchars]
          exact String.toList_ofList
        rw [List.cons.injEq] at hupper
        have hd : ¬ d < '0' := by
          intro hlt
          rw [toUpper_of_lt hlt] at hupper
          exact absurd (hupper.1 ▸ hc) (Char.not_le.mpr hlt)
        refine not_lt.mp fun hlt => ?_
        rw [String.lt_iff_toList_lt, hchars] at hlt
        have hlt : d :: ds < ['0'] := hlt
        rcases List.cons_lt_cons_iff.mp hlt with hlt | ⟨-, hlt⟩
        · exact hd hlt
        · exact List.not_lt_nil ds hlt

theorem parseInt_repr (n : ℕ) : parseInt (Nat.repr n) = some n := by
  have hdigits : (Nat.repr n).toList.all Char.isDigit := by
    rw [Nat.toList_repr, List.all_eq_true]
    exact fun c hc => Nat.isDigit_of_mem_toDigits (by decide) (by decide) hc
  have hne : Nat.repr n ≠ "" := by simp
  rw [parseInt, if_pos ⟨hne, hdigits⟩, Nat.toList_repr, Nat.ofDigitChars_toDigits (by decide) (by decide)]

theorem colon_repr (n : ℕ) : ':' ∉ (Nat.repr n).toList := by
  rw [Nat.toList_repr]
  intro h
  exact absurd (Nat.isDigit_of_mem_toDigits (by decide) (by decide) h) (by decide)

/-- A cursor is read as it was written. -/
theorem position_cursorText {args : FindArgs} {resource : String} {k : ℕ}
    (hcolon : ':' ∉ resource.toList) (hcursor : args.cursorNext = some (cursorText resource k)) :
    position args = .ok (resource, k) := by
  have hjoin : cursorText resource k = Text.join ["cursor", resource, Nat.repr k] ':' := by
    rw [cursorText, Text.join]
    apply String.toList_injective
    simp
  have hsplit : Text.split (cursorText resource k) ':' = ["cursor", resource, Nat.repr k] := by
    rw [hjoin]
    refine Text.split_join (by simp) fun s hs => ?_
    simp only [List.mem_cons, List.not_mem_nil, or_false] at hs
    rcases hs with rfl | rfl | rfl
    · decide
    · exact hcolon
    · exact colon_repr k
  unfold position
  rw [hcursor]
  simp only [hsplit, parseInt_repr]

/-! ### One page -/

variable {svc : Service} {db : Database} {acc : Access} {controllers : List String}
  {args : FindArgs} {filter : Dict} {limit : ℕ}

/-- The records of one resource that fit are put on the page; where one does not fit, the page is
returned with a cursor to it. -/
theorem add_eq (resource : String) (m : Model) (rows : List Row) (page : Page) (offset : ℕ)
    (hcount : page.count ≤ limit) :
    add resource m limit (rows.take (limit - page.count + 1)) page offset =
      if limit - page.count < rows.length then
        (⟨page.items ++ (rows.take (limit - page.count)).map (item resource m), limit,
          some (cursorText resource (offset + (limit - page.count)))⟩, none)
      else
        (⟨page.items ++ rows.map (item resource m), page.count + rows.length, page.cursorNext⟩,
          some (offset + rows.length)) := by
  induction rows generalizing page offset with
  | nil =>
      have hzero : ¬ limit - page.count < ([] : List Row).length := Nat.not_lt_zero _
      rw [List.take_nil, add, if_neg hzero, List.map_nil, List.append_nil]
      rfl
  | cons row rows ih =>
      rw [List.take_succ_cons, add]
      by_cases hfull : limit ≤ page.count
      · have hlimit : limit = page.count := Nat.le_antisymm hfull hcount
        have hsome : 0 < (row :: rows).length := Nat.succ_pos _
        rw [if_pos hfull, hlimit, Nat.sub_self, if_pos hsome, List.take_zero, List.map_nil,
          List.append_nil]
        rfl
      · rw [if_neg hfull]
        have hroom : limit - page.count = limit - (page.count + 1) + 1 := by omega
        have hnext := ih ⟨page.items ++ [item resource m row], page.count + 1, page.cursorNext⟩
          (offset + 1) (by simp only; omega)
        simp only at hnext
        rw [hroom, hnext, List.take_succ_cons, List.length_cons]
        by_cases hmore : limit - (page.count + 1) < rows.length
        · rw [if_pos hmore, if_pos (by omega)]
          simp [Nat.add_assoc, Nat.add_comm 1]
        · rw [if_neg hmore, if_neg (by omega)]
          simp [Nat.add_assoc, Nat.add_comm 1]

/-- The item of a record found in a resource. -/
def found (models : String → Model) (r : String × Row) : Item := item r.1 (models r.1) r.2

/-- One section for each resource. -/
def sections (rows : String → List Row) (resources : List String) : List (String × List Row) :=
  resources.map fun resource => (resource, rows resource)

/-- The loop over the resources fills a page from their sections. -/
theorem fill_eq {results : String → Except Response (Model × List Row)} {models : String → Model}
    {rows : String → List Row} {resources : List String}
    (hresults : ∀ r ∈ resources, results r = .ok (models r, rows r)) (shown : List (String × Row))
    (offset : ℕ) (hshown : shown.length ≤ limit) :
    fill results limit resources ⟨shown.map (found models), shown.length, none⟩ offset =
      .ok ⟨(Paging.fill limit (sections rows resources) shown offset).1.map (found models),
        (Paging.fill limit (sections rows resources) shown offset).1.length,
        (Paging.fill limit (sections rows resources) shown offset).2.map fun c =>
          cursorText c.1 c.2⟩ := by
  induction resources generalizing shown offset with
  | nil => rfl
  | cons resource resources ih =>
      have hrest := fun r hr => hresults r (List.mem_cons_of_mem resource hr)
      have htake : (((rows resource).drop offset).take (limit + 1)).take (limit - shown.length + 1) =
          ((rows resource).drop offset).take (limit - shown.length + 1) := by
        rw [List.take_take, Nat.min_eq_left (by omega)]
      have hadd := @add_eq limit resource (models resource) ((rows resource).drop offset)
        ⟨shown.map (found models), shown.length, none⟩ offset hshown
      have hmap : ∀ l : List Row, shown.map (found models) ++ l.map (item resource (models resource)) =
          (shown ++ l.map (Prod.mk resource)).map (found models) := by
        intro l
        rw [List.map_append, List.map_map]
        rfl
      rw [fill, hresults resource List.mem_cons_self]
      simp only [bind, Except.bind]
      rw [htake, hadd]
      by_cases hfull : limit - shown.length < ((rows resource).drop offset).length
      · have hpage : Paging.fill limit (sections rows (resource :: resources)) shown offset =
            (shown ++ (((rows resource).drop offset).take (limit - shown.length)).map
              (Prod.mk resource), some (resource, offset + (limit - shown.length))) := if_pos hfull
        rw [if_pos hfull, hpage, hmap]
        simp only [Except.ok.injEq, Page.mk.injEq, true_and, List.length_append, List.length_map,
          List.length_take]
        exact ⟨by omega, rfl⟩
      · have hpage : Paging.fill limit (sections rows (resource :: resources)) shown offset =
            Paging.fill limit (sections rows resources)
              (shown ++ ((rows resource).drop offset).map (Prod.mk resource))
              (if shown ++ ((rows resource).drop offset).map (Prod.mk resource) = [] then offset
                else 0) := if_neg hfull
        have hlength : shown.length + ((rows resource).drop offset).length =
            (shown ++ ((rows resource).drop offset).map (Prod.mk resource)).length := by
          rw [List.length_append, List.length_map]
        rw [if_neg hfull, hpage]
        simp only
        rw [hmap, hlength, ← ih hrest _ _ (by omega)]
        congr 1
        by_cases hnil : shown ++ ((rows resource).drop offset).map (Prod.mk resource) = []
        · have hnone : ((rows resource).drop offset).length = 0 := by
            rw [hnil] at hlength
            exact Nat.eq_zero_of_add_eq_zero_left hlength
          rw [if_pos hnil, if_pos (List.map_eq_nil_iff.mpr hnil), hnone]
          rfl
        · rw [if_neg hnil, if_neg fun hmap => hnil (List.map_eq_nil_iff.mp hmap)]

/-! ### What a session may see -/

/-- A resource that the request asks for: the one in the filter, or any that is registered, other than
those without a trashcan. -/
def Asked (controllers : List String) (filter : Dict) (resource : String) : Prop :=
  filter.get "resource" = .str resource ∨ "resource" ∉ filter ∧ resource ∈ controllers ∧
    resource ∉ ["auth", "scope", "settings", "trashcan", "tz"]

/-- A disabled record of the resource that meets the filter, and that the policies let the session
find. -/
structure Visible (svc : Service) (db : Database) (acc : Access) (filter : Dict) (resource : String)
    (m : Model) (row : Row) : Prop where
  model : modelFor resource = some m
  stored : row ∈ db.rows m
  disabled : row "status" = .str "disabled"
  meets : Meets m resource filter row
  policies : ∃ conds, AccessControl.withFilter svc.policies acc m 'r' = .ok conds ∧
    ∀ cs, conds = some cs → AccessControl.Passes db acc cs row

/-- The query of a resource returns the visible records, each once. -/
theorem query_spec {sort : String × Bool} {resource : String} {m : Model} {rows : List Row}
    (h : query svc db acc filter sort resource = .ok (m, rows)) :
    modelFor resource = some m ∧ rows.Nodup ∧
      ∀ row, row ∈ rows ↔ Visible svc db acc filter resource m row := by
  unfold query at h
  cases hmodel : modelFor resource with
  | none =>
      rw [hmodel] at h
      cases h
  | some m' =>
      rw [hmodel] at h
      simp only at h
      obtain ⟨⟨xfilter, clauses⟩, hnarrow, h⟩ := Checks.bind_eq_ok.mp h
      obtain ⟨_, hstatus, h⟩ := Checks.bind_eq_ok.mp h
      obtain ⟨conds, hconds, h⟩ := Checks.bind_eq_ok.mp h
      obtain ⟨_, -, h⟩ := Checks.bind_eq_ok.mp h
      rw [Checks.ensure_eq_ok] at hstatus
      rw [Checks.orElse_eq_ok] at hconds
      cases h
      refine ⟨rfl, List.Nodup.sublist (AccessControl.keep_sublist _ _) ?_, fun row => ?_⟩
      · have hnodup := (rows_nodup db hstatus).filter fun row => decide
          ((∀ entry ∈ xfilter.entries, row entry.1 = entry.2) ∧
            (∀ c ∈ clauses, c.2.Holds (row c.1)) ∧ row "status" = .str "disabled")
        split_ifs
        · exact (List.perm_insertionSort ..).nodup_iff.mpr hnodup
        · exact hnodup
      · have hsort : ∀ l : List Row, row ∈ (if m.Has sort.1 then
            BasicCrud.ordered sort.1 sort.2 l else l) ↔ row ∈ l := by
          intro l
          split_ifs
          · exact (List.perm_insertionSort ..).mem_iff
          · exact Iff.rfl
        rw [AccessControl.mem_keep, hsort, List.mem_filter, decide_eq_true_iff]
        constructor
        · rintro ⟨⟨hstored, hequal, hclauses, hdisabled⟩, hpasses⟩
          exact ⟨hmodel, hstored, hdisabled, ⟨xfilter, clauses, hnarrow, hequal, hclauses⟩,
            ⟨conds, hconds, hpasses⟩⟩
        · rintro ⟨-, hstored, hdisabled, ⟨xfilter', clauses', hnarrow', hequal, hclauses⟩,
            ⟨conds', hconds', hpasses⟩⟩
          cases hnarrow.symm.trans hnarrow'
          cases hconds.symm.trans hconds'
          exact ⟨⟨hstored, hequal, hclauses, hdisabled⟩, hpasses⟩

/-! ### The resources that are asked -/

/-- The request is accepted, and the query of every resource that it asks for returns. -/
structure Returns (svc : Service) (db : Database) (acc : Access) (controllers : List String)
    (args : FindArgs) (filter : Dict) (models : String → Model) (rows : String → List Row) : Prop where
  accepted : filterOf acc args = .ok filter
  listed : ∃ resources, resourcesOf controllers args filter "0" = .ok resources
  queried : ∃ sort, sortOf args.sort = .ok sort ∧ ∀ r, Asked controllers filter r →
    query svc db acc (criteria filter) sort r = .ok (models r, rows r)

variable {models : String → Model} {rows : String → List Row} {resources : List String}
  {resource start : String}

theorem asked_of_mem (h : resourcesOf controllers args filter start = .ok resources)
    (hmem : resource ∈ resources) : Asked controllers filter resource := by
  unfold resourcesOf at h
  split_ifs at h with hresource hoffset
  · split at h
    · rename_i name hname
      cases h
      rw [List.mem_singleton.mp hmem]
      exact Or.inl hname
    · cases h
  · cases h
    obtain ⟨hcontroller, hlisted⟩ := List.mem_filter.mp hmem
    exact Or.inr ⟨hresource, hcontroller, (of_decide_eq_true hlisted).1⟩

/-- From the first resource on, every resource that is asked for is asked. -/
theorem mem_of_asked (hreturns : Returns svc db acc controllers args filter models rows)
    (h : resourcesOf controllers args filter "0" = .ok resources)
    (hasked : Asked controllers filter resource) : resource ∈ resources := by
  obtain ⟨sort, -, hquery⟩ := hreturns.queried
  have hname := (name_of_modelFor (query_spec (hquery resource hasked)).1).2
  unfold resourcesOf at h
  split_ifs at h with hresource hoffset
  · rcases hasked with hfilter | ⟨hnone, -, -⟩
    · rw [hfilter] at h
      cases h
      exact List.mem_singleton_self resource
    · exact absurd hresource hnone
  · cases h
    rcases hasked with hfilter | ⟨-, hcontroller, hlisted⟩
    · exact absurd (Dict.mem_of_get (by rw [hfilter]; simp)) hresource
    · exact List.mem_filter.mpr ⟨hcontroller, decide_eq_true ⟨hlisted, hname⟩⟩

/-- A request from a resource that was asked asks it and the ones behind it. -/
theorem resourcesOf_suffix (hsorted : controllers.Pairwise (· < ·)) {pre post : List String}
    (h : resourcesOf controllers args filter start = .ok (pre ++ resource :: post)) :
    resourcesOf controllers args filter resource = .ok (resource :: post) := by
  unfold resourcesOf at h ⊢
  by_cases hresource : "resource" ∈ filter
  · rw [if_pos hresource] at h ⊢
    cases hname : filter.get "resource" with
    | str name =>
        rw [hname] at h
        simp only [Except.ok.injEq] at h
        have hlength := congrArg List.length h
        rw [List.length_append, List.length_cons, List.length_cons, List.length_nil] at hlength
        have hpre : pre = [] := List.eq_nil_of_length_eq_zero (by omega)
        have hpost : post = [] := List.eq_nil_of_length_eq_zero (by omega)
        subst hpre hpost
        exact congrArg Except.ok h
    | _ =>
        rw [hname] at h
        cases h
  · rw [if_neg hresource] at h ⊢
    by_cases hoffset : args.offset.isSome = true
    · rw [if_pos hoffset] at h
      cases h
    · rw [if_neg hoffset, Except.ok.injEq] at h ⊢
      have hstart : start ≤ resource := by
        have hmem : resource ∈ pre ++ resource :: post :=
          List.mem_append_right _ List.mem_cons_self
        rw [← h] at hmem
        exact (of_decide_eq_true (List.mem_filter.mp hmem).2).2
      have hpairwise : (pre ++ resource :: post).Pairwise (· < ·) := h ▸ hsorted.filter _
      have hfilter : controllers.filter (fun key => decide
          (key ∉ ["auth", "scope", "settings", "trashcan", "tz"] ∧ resource ≤ key)) =
            (pre ++ resource :: post).filter fun key => decide (resource ≤ key) := by
        rw [← h, List.filter_filter]
        refine List.filter_congr fun key _ => ?_
        rw [← Bool.decide_and, decide_eq_decide]
        exact ⟨fun hk => ⟨hk.2, hk.1, hstart.trans hk.2⟩, fun hk => ⟨hk.2.1, hk.1⟩⟩
      rw [hfilter, List.filter_append]
      obtain ⟨-, hbehind, hbefore⟩ := List.pairwise_append.mp hpairwise
      have hpre : pre.filter (fun key => decide (resource ≤ key)) = [] := by
        rw [List.filter_eq_nil_iff]
        intro key hkey
        have hlt := hbefore key hkey resource List.mem_cons_self
        rw [decide_eq_true_iff]
        exact not_le.mpr hlt
      have hpost : (resource :: post).filter (fun key => decide (resource ≤ key)) =
          resource :: post := by
        rw [List.filter_eq_self]
        intro key hkey
        rcases List.mem_cons.mp hkey with rfl | hkey
        · exact decide_eq_true (le_refl key)
        · exact decide_eq_true ((List.pairwise_cons.mp hbehind).1 key hkey).le
      rw [hpre, hpost, List.nil_append]

theorem resources_nodup (hsorted : controllers.Pairwise (· < ·))
    (h : resourcesOf controllers args filter start = .ok resources) : resources.Nodup := by
  unfold resourcesOf at h
  split_ifs at h
  · split at h
    · cases h
      exact List.nodup_singleton _
    · cases h
  · cases h
    exact (hsorted.imp ne_of_lt).filter _

/-! ### Following the cursors -/

/-- The pages of a listing: the request number `n` is made with the limit `limits n`, at the cursor of the
page before. -/
def Follows (svc : Service) (db : Database) (acc : Access) (controllers : List String)
    (args : FindArgs) (limits : ℕ → ℕ) : ℕ → Option String → List Page → Prop :=
  Paging.Paged
    (fun n c page =>
      find svc db acc controllers { args with cursorNext := c, limit := limits n } = .ok page)
    fun page => page.cursorNext.map some

/-- Following the cursors gives one list of pages: what holds of some pages that are followed holds of
all that are. -/
theorem Follows.unique {limits : ℕ → ℕ} {n : ℕ} {c : Option String} {pages pages' : List Page}
    (h : Follows svc db acc controllers args limits n c pages)
    (h' : Follows svc db acc controllers args limits n c pages') : pages = pages' :=
  Paging.Paged.unique (fun _ _ _ _ hpage hpage' => Except.ok.inj (hpage.symm.trans hpage')) h h'

/-- What is left at a cursor. -/
def Left (controllers : List String) (args : FindArgs) (filter : Dict) (models : String → Model)
    (rows : String → List Row) (c : Option String) (l : List Item) : Prop :=
  ∃ start k resources, position { args with cursorNext := c } = .ok (start, k) ∧
    resourcesOf controllers args filter start = .ok resources ∧
    l = (Paging.rest (sections rows resources) k).map (found models)

/-- A page is the first of what is left, and its cursor has the remainder. -/
theorem find_left (hreturns : Returns svc db acc controllers args filter models rows)
    (hsorted : controllers.Pairwise (· < ·)) (hlimit : 1 ≤ limit) {c : Option String} {l : List Item}
    (hleft : Left controllers args filter models rows c l) :
    ∃ page, find svc db acc controllers { args with cursorNext := c, limit := limit } = .ok page ∧
      (page.cursorNext.map some = none ∧ page.items = l ∨
        ∃ c' l', page.cursorNext.map some = some c' ∧ page.items ≠ [] ∧
          Left controllers args filter models rows c' l' ∧ l = page.items ++ l') := by
  obtain ⟨start, k, resources, hposition, hresources, rfl⟩ := hleft
  obtain ⟨sort, hsort, hquery⟩ := hreturns.queried
  have hfill := @fill_eq limit (query svc db acc (criteria filter) sort) models rows resources
    (fun r hr => hquery r (asked_of_mem hresources hr)) [] k (Nat.zero_le limit)
  obtain ⟨taken, htaken, hnext⟩ :=
    Paging.fill_spec limit (sections rows resources) [] k (Nat.zero_le limit) fun h => absurd rfl h
  rw [List.nil_append] at htaken
  rw [htaken] at hfill
  have hfind : find svc db acc controllers { args with cursorNext := c, limit := limit } =
      fill (query svc db acc (criteria filter) sort) limit resources {} k := by
    have hposition : position { args with cursorNext := c, limit := limit } = .ok (start, k) :=
      hposition
    have haccepted : filterOf acc { args with cursorNext := c, limit := limit } = .ok filter :=
      hreturns.accepted
    have hresources : resourcesOf controllers { args with cursorNext := c, limit := limit } filter
        start = .ok resources := hresources
    unfold find
    rw [hposition]
    simp only [bind, Except.bind, hsort, haccepted, hresources]
  refine ⟨_, hfind.trans hfill, ?_⟩
  rcases hnext with ⟨hnone, hrest⟩ | ⟨i, k', pre, rows', post, hsome, hsections, hlt, hfull, hrest⟩
  · exact Or.inl ⟨by simp [hnone], by rw [hrest]⟩
  · obtain ⟨names, names', rfl, rfl, hcut⟩ := List.map_eq_append_iff.mp hsections
    obtain ⟨i, behind, rfl, hi, rfl⟩ := List.map_eq_cons_iff.mp hcut
    cases hi
    have hasked := asked_of_mem hresources (List.mem_append_right names List.mem_cons_self)
    have hcolon := (name_of_modelFor (query_spec (hquery i hasked)).1).1
    refine Or.inr ⟨some (cursorText i k'), _, by simp [hsome], ?_, ⟨i, k', i :: behind,
      position_cursorText hcolon rfl, resourcesOf_suffix hsorted hresources, rfl⟩, ?_⟩
    · simp only [ne_eq, List.map_eq_nil_iff]
      rintro rfl
      rw [List.length_nil] at hfull
      omega
    · rw [hrest, List.map_append]
      rfl

theorem follows_of_left (hreturns : Returns svc db acc controllers args filter models rows)
    (hsorted : controllers.Pairwise (· < ·)) {limits : ℕ → ℕ} (hlimits : ∀ n, 1 ≤ limits n)
    {c : Option String} {l : List Item} (hleft : Left controllers args filter models rows c l) :
    ∃ pages, Follows svc db acc controllers args limits 0 c pages ∧
      pages.flatMap Page.items = l :=
  Paging.Paged.exists_of_left Page.items (Left controllers args filter models rows)
    (fun n _ _ hleft => find_left hreturns hsorted (hlimits n) hleft) hleft 0

theorem found_injective (models : String → Model) : Function.Injective (found models) := by
  rintro ⟨r, row⟩ ⟨r', row'⟩ h
  exact Prod.ext (congrArg Item.resource h) (congrArg Item.record h)

/-- The items of the resources are the visible records. -/
theorem mem_sections (hreturns : Returns svc db acc controllers args filter models rows)
    {r : String} (hasked : Asked controllers filter r) (row : Row) :
    row ∈ rows r ↔ Visible svc db acc (criteria filter) r (models r) row := by
  obtain ⟨sort, -, hquery⟩ := hreturns.queried
  exact (query_spec (hquery r hasked)).2.2 row

theorem model_eq (hreturns : Returns svc db acc controllers args filter models rows) {r : String}
    (hasked : Asked controllers filter r) {m : Model} (hm : modelFor r = some m) : m = models r := by
  obtain ⟨sort, -, hquery⟩ := hreturns.queried
  exact Option.some.inj (hm.symm.trans (query_spec (hquery r hasked)).1)

theorem sections_nodup (hreturns : Returns svc db acc controllers args filter models rows)
    (hnodup : resources.Nodup) (hasked : ∀ r ∈ resources, Asked controllers filter r) :
    (Paging.items (sections rows resources)).Nodup := by
  obtain ⟨sort, -, hquery⟩ := hreturns.queried
  refine Paging.items_nodup ?_ fun s hs => ?_
  · rw [sections, List.map_map]
    exact (List.map_id resources).symm ▸ hnodup
  · obtain ⟨r, hr, rfl⟩ := List.mem_map.mp hs
    exact (query_spec (hquery r (hasked r hr))).2.1

theorem mem_items_sections {r : String} {row : Row} :
    (r, row) ∈ Paging.items (sections rows resources) ↔ r ∈ resources ∧ row ∈ rows r := by
  rw [Paging.mem_items]
  constructor
  · rintro ⟨l, hmem, hrow⟩
    obtain ⟨r', hr', heq⟩ := List.mem_map.mp hmem
    cases heq
    exact ⟨hr', hrow⟩
  · rintro ⟨hr, hrow⟩
    exact ⟨rows r, List.mem_map.mpr ⟨r, hr, rfl⟩, hrow⟩

/-- Following the cursors from none, every record that the session may see is returned once. -/
theorem paging_complete (hreturns : Returns svc db acc controllers args filter models rows)
    (hsorted : controllers.Pairwise (· < ·)) (hoffset : args.offset = none) {limits : ℕ → ℕ}
    (hlimits : ∀ n, 1 ≤ limits n) :
    ∃ pages, Follows svc db acc controllers args limits 0 none pages ∧
      (pages.flatMap Page.items).Nodup ∧
      ∀ it, it ∈ pages.flatMap Page.items ↔ ∃ r m row, Asked controllers filter r ∧
        Visible svc db acc (criteria filter) r m row ∧ it = item r m row := by
  obtain ⟨resources, hresources⟩ := hreturns.listed
  have hleft : Left controllers args filter models rows none
      ((Paging.items (sections rows resources)).map (found models)) := by
    refine ⟨"0", 0, resources, ?_, hresources, by rw [Paging.rest_zero]⟩
    unfold position
    simp only [hoffset, Option.getD_none]
  obtain ⟨pages, hpages, hitems⟩ := follows_of_left hreturns hsorted hlimits hleft
  have hasked : ∀ r ∈ resources, Asked controllers filter r := fun r hr =>
    asked_of_mem hresources hr
  refine ⟨pages, hpages, ?_, fun it => ?_⟩
  · rw [hitems]
    exact (sections_nodup hreturns (resources_nodup hsorted hresources) hasked).map
      (found_injective models)
  · rw [hitems, List.mem_map]
    constructor
    · rintro ⟨⟨r, row⟩, hmem, rfl⟩
      obtain ⟨hr, hrow⟩ := mem_items_sections.mp hmem
      exact ⟨r, models r, row, hasked r hr, (mem_sections hreturns (hasked r hr) row).mp hrow, rfl⟩
    · rintro ⟨r, m, row, hr, hvisible, rfl⟩
      cases model_eq hreturns hr hvisible.model
      have hmem := mem_of_asked hreturns hresources hr
      exact ⟨(r, row), mem_items_sections.mpr ⟨hmem, (mem_sections hreturns hr row).mpr hvisible⟩, rfl⟩

/-! ### The trashcan of a user -/

/-- The queries return where each of them does. -/
theorem returns_of_toBool {sort : String × Bool} (haccepted : filterOf acc args = .ok filter)
    (hlisted : ∃ resources, resourcesOf controllers args filter "0" = .ok resources)
    (hsort : sortOf args.sort = .ok sort)
    (hquery : ∀ r, Asked controllers filter r →
      (query svc db acc (criteria filter) sort r).toBool = true) :
    Returns svc db acc controllers args filter
      (fun r => ((query svc db acc (criteria filter) sort r).toOption.map Prod.fst).getD .tz)
      (fun r => ((query svc db acc (criteria filter) sort r).toOption.map Prod.snd).getD []) := by
  refine ⟨haccepted, hlisted, sort, hsort, fun r hr => ?_⟩
  have hok := hquery r hr
  cases hresult : query svc db acc (criteria filter) sort r with
  | error answer =>
      rw [hresult] at hok
      cases hok
  | ok q => rfl

/-- The resources that the controllers of the example register. -/
def registered : List String :=
  ["account", "apikey", "auth", "category", "contact", "credential", "grant", "list", "location",
    "message", "person", "profile", "scope", "settings", "trashcan", "tz"]

/-- A disabled contact of the other user. -/
def number (id info : String) : Model × Row :=
  (.contact, Seed.row .contact [("id", .str id), ("uid", .str "u-0002"), ("type", .str "sms"),
    ("info", .str info), ("status", .str "disabled")])

/-- A disabled grant of the other user. -/
def allowance : Model × Row :=
  (.grant, Seed.row .grant [("id", .str "x-g0001"), ("uid", .str "u-0002"),
    ("name", .str "contacts"), ("value", .str "5"), ("status", .str "disabled")])

/-- Two contacts and a grant are disabled. -/
def trashed : Database :=
  ⟨Seed.tables (Seed.records ++ Seed.member ++
    [number "x-c0003" "+15550003", number "x-c0004" "+15550004", allowance]), by decide +kernel⟩

/-- One of the contacts has been purged. -/
def purged : Database :=
  ⟨Seed.tables (Seed.records ++ Seed.member ++ [number "x-c0003" "+15550003", allowance]),
    by decide +kernel⟩

/-- The session of the other user, and the filter of its requests. -/
def secondUser : Access := { auth := some ["user"], uid := some "u-0002" }

def ownFilter : Dict := (∅ : Dict).set "uid" (.str "u-0002")

theorem asked_registered {r : String} (h : Asked registered ownFilter r) :
    r ∈ registered ∧ r ∉ ["auth", "scope", "settings", "trashcan", "tz"] := by
  rcases h with hfilter | ⟨-, hmem, hlisted⟩
  · exact absurd hfilter (by simp [ownFilter])
  · exact ⟨hmem, hlisted⟩

theorem returns_trashed : ∃ models rows,
    Returns Seed.service trashed secondUser registered {} ownFilter models rows ∧
      1 < (rows "contact").length := by
  have hqueries : ∀ r ∈ registered, r ∉ ["auth", "scope", "settings", "trashcan", "tz"] →
      (query Seed.service trashed secondUser (criteria ownFilter) ("name", false) r).toBool = true := by
    decide +kernel
  refine ⟨_, _, returns_of_toBool rfl ⟨_, rfl⟩ (by decide +kernel : _ = Except.ok ("name", false))
    fun r hr => ?_, by decide +kernel⟩
  exact hqueries r (asked_registered hr).1 (asked_registered hr).2

/-- Pages of growing length through the trashcan of the user. -/
theorem secondUser_complete :
    ∃ pages, Follows Seed.service trashed secondUser registered {} (fun n => n + 1) 0 none pages ∧
      (pages.flatMap Page.items).Nodup ∧
      ∀ it, it ∈ pages.flatMap Page.items ↔ ∃ r m row, Asked registered ownFilter r ∧
        Visible Seed.service trashed secondUser (criteria ownFilter) r m row ∧
          it = item r m row := by
  obtain ⟨models, rows, hreturns, -⟩ := returns_trashed
  exact paging_complete hreturns (by decide) rfl fun n => Nat.le_add_left 1 n

/-! ### Cursors that outlive their records -/

/-- A request from a registered resource asks it, if it has a trashcan, and the ones behind it. -/
theorem resourcesOf_from (hsorted : controllers.Pairwise (· < ·)) (hnone : "resource" ∉ filter)
    (hlisted : ∃ resources, resourcesOf controllers args filter "0" = .ok resources) {R : String}
    (hR : R ∈ controllers) :
    ∃ later, resourcesOf controllers args filter R = .ok
        (([R].filter fun key => decide (key ∉ ["auth", "scope", "settings", "trashcan", "tz"])) ++
          later) ∧
      ∀ r, r ∈ later ↔ Asked controllers filter r ∧ R < r := by
  obtain ⟨resources, hresources⟩ := hlisted
  unfold resourcesOf at hresources ⊢
  rw [if_neg hnone] at hresources ⊢
  by_cases hoffset : args.offset.isSome = true
  · rw [if_pos hoffset] at hresources
    cases hresources
  · rw [if_neg hoffset]
    obtain ⟨A, B, rfl⟩ := List.append_of_mem hR
    obtain ⟨-, hB, hA⟩ := List.pairwise_append.mp hsorted
    have hbefore : ∀ key ∈ A, key < R := fun key hkey => hA key hkey R List.mem_cons_self
    have hbehind : ∀ key ∈ B, R < key := (List.pairwise_cons.mp hB).1
    refine ⟨B.filter fun key =>
      decide (key ∉ ["auth", "scope", "settings", "trashcan", "tz"]), ?_, fun r => ?_⟩
    · have hnil : A.filter (fun key => decide
          (key ∉ ["auth", "scope", "settings", "trashcan", "tz"] ∧ R ≤ key)) = [] := by
        rw [List.filter_eq_nil_iff]
        intro key hkey
        rw [decide_eq_true_iff]
        exact fun h => not_le.mpr (hbefore key hkey) h.2
      have hsplit : A ++ R :: B = A ++ ([R] ++ B) := rfl
      rw [hsplit, List.filter_append, List.filter_append, hnil, List.nil_append, Except.ok.injEq]
      congr 1
      · refine List.filter_congr fun key hkey => decide_eq_decide.mpr (and_iff_left ?_)
        rw [List.mem_singleton.mp hkey]
      · exact List.filter_congr fun key hkey =>
          decide_eq_decide.mpr (and_iff_left (hbehind key hkey).le)
    · rw [List.mem_filter, decide_eq_true_iff]
      constructor
      · rintro ⟨hr, hlisted⟩
        exact ⟨Or.inr ⟨hnone, List.mem_append_right A (List.mem_cons_of_mem R hr), hlisted⟩,
          hbehind r hr⟩
      · rintro ⟨hfilter | ⟨-, hr, hlisted⟩, hlt⟩
        · exact absurd (Dict.mem_of_get (by rw [hfilter]; simp)) hnone
        · refine ⟨?_, hlisted⟩
          rcases List.mem_append.mp hr with hr | hr
          · exact absurd (hbefore r hr) (lt_asymm hlt)
          · rcases List.mem_cons.mp hr with rfl | hr
            · exact absurd hlt (lt_irrefl r)
            · exact hr

/-- What a cursor has left: records of its own resource, and what the offset leaves of the others. -/
theorem rest_from (hnone : "resource" ∉ filter) {R : String} (hR : R ∈ controllers)
    (later : List String) (k : ℕ) :
    ∃ pre k', Paging.rest (sections rows
        (([R].filter fun key => decide (key ∉ ["auth", "scope", "settings", "trashcan", "tz"])) ++
          later)) k = pre ++ Paging.rest (sections rows later) k' ∧
      (∀ x ∈ pre, x.1 = R) ∧
      (k' = 0 ↔ k = 0 ∨ Asked controllers filter R ∧ k < (rows R).length) := by
  by_cases hlisted : R ∉ ["auth", "scope", "settings", "trashcan", "tz"]
  · have hasked : Asked controllers filter R := Or.inr ⟨hnone, hR, hlisted⟩
    have hfilter : [R].filter (fun key => decide
        (key ∉ ["auth", "scope", "settings", "trashcan", "tz"])) = [R] := by
      rw [List.filter_eq_self]
      intro key hkey
      rw [List.mem_singleton.mp hkey]
      exact decide_eq_true hlisted
    rw [hfilter]
    refine ⟨((rows R).drop k).map (Prod.mk R), if (rows R).drop k = [] then k else 0, rfl,
      fun x hx => ?_, ?_⟩
    · obtain ⟨row, -, rfl⟩ := List.mem_map.mp hx
      rfl
    · by_cases hlt : k < (rows R).length
      · have hsome : (rows R).drop k ≠ [] := fun hdrop =>
          absurd (List.drop_eq_nil_iff.mp hdrop) (Nat.not_le.mpr hlt)
        rw [if_neg hsome]
        exact ⟨fun _ => Or.inr ⟨hasked, hlt⟩, fun _ => rfl⟩
      · rw [if_pos (List.drop_eq_nil_of_le (Nat.not_lt.mp hlt))]
        exact ⟨Or.inl, fun h => h.resolve_right fun hcon => hlt hcon.2⟩
  · have hfilter : [R].filter (fun key => decide
        (key ∉ ["auth", "scope", "settings", "trashcan", "tz"])) = [] := by
      rw [List.filter_eq_nil_iff]
      intro key hkey
      rw [List.mem_singleton.mp hkey, decide_eq_true_iff]
      exact hlisted
    rw [hfilter]
    refine ⟨[], k, rfl, fun x hx => absurd hx List.not_mem_nil, Or.inl, fun h => ?_⟩
    refine h.resolve_right fun hcon => ?_
    rcases hcon.1 with hget | ⟨-, -, hmem⟩
    · exact hnone (Dict.mem_of_get (by rw [hget]; simp))
    · exact hlisted hmem

/-- From a cursor, the records of the resources behind its own are all returned if and only if its offset
is zero or still names a record, or there are none. -/
theorem later_returned_iff (hreturns : Returns svc db acc controllers args filter models rows)
    (hsorted : controllers.Pairwise (· < ·)) (hnone : "resource" ∉ filter) {limits : ℕ → ℕ}
    (hlimits : ∀ n, 1 ≤ limits n) {R : String} (hR : R ∈ controllers) (hcolon : ':' ∉ R.toList)
    (k : ℕ) :
    ∃ pages, Follows svc db acc controllers args limits 0 (some (cursorText R k)) pages ∧
      ((∀ r m row, Asked controllers filter r → R < r →
          Visible svc db acc (criteria filter) r m row → item r m row ∈ pages.flatMap Page.items) ↔
        k = 0 ∨ (Asked controllers filter R ∧ k < (rows R).length) ∨
          ∀ r m row, Asked controllers filter r → R < r →
            ¬ Visible svc db acc (criteria filter) r m row) := by
  obtain ⟨later, hfrom, hlater⟩ := resourcesOf_from hsorted hnone hreturns.listed hR
  obtain ⟨pre, k', hrest, hpre, hk'⟩ := @rest_from controllers filter rows hnone R hR later k
  have hleft : Left controllers args filter models rows (some (cursorText R k))
      ((pre ++ Paging.rest (sections rows later) k').map (found models)) :=
    ⟨R, k, _, position_cursorText hcolon rfl, hfrom, by rw [hrest]⟩
  obtain ⟨pages, hpages, hitems⟩ := follows_of_left hreturns hsorted hlimits hleft
  have hnodup : (Paging.items (sections rows later)).Nodup :=
    sections_nodup hreturns (List.nodup_append.mp (resources_nodup hsorted hfrom)).2.1
      fun r hr => ((hlater r).mp hr).1
  have hitem : ∀ r row, (r, row) ∈ Paging.items (sections rows later) ↔
      Asked controllers filter r ∧ R < r ∧ Visible svc db acc (criteria filter) r (models r) row := by
    intro r row
    rw [mem_items_sections, hlater, and_assoc]
    exact and_congr_right fun hr => and_congr_right fun _ => mem_sections hreturns hr row
  have hsubset : (∀ r m row, Asked controllers filter r → R < r →
      Visible svc db acc (criteria filter) r m row → item r m row ∈ pages.flatMap Page.items) ↔
        Paging.items (sections rows later) ⊆ Paging.rest (sections rows later) k' := by
    rw [hitems]
    constructor
    · rintro hall ⟨r, row⟩ hmem
      obtain ⟨hr, hlt, hvisible⟩ := (hitem r row).mp hmem
      have hreturned : found models (r, row) ∈ _ := hall r (models r) row hr hlt hvisible
      rw [List.mem_map_of_injective (found_injective models), List.mem_append] at hreturned
      exact hreturned.resolve_left fun hmem => absurd (hpre _ hmem) hlt.ne'
    · intro hall r m row hr hlt hvisible
      cases model_eq hreturns hr hvisible.model
      exact List.mem_map.mpr ⟨(r, row),
        List.mem_append_right pre (hall ((hitem r row).mpr ⟨hr, hlt, hvisible⟩)), rfl⟩
  have hempty : Paging.items (sections rows later) = [] ↔ ∀ r m row, Asked controllers filter r →
      R < r → ¬ Visible svc db acc (criteria filter) r m row := by
    rw [List.eq_nil_iff_forall_not_mem]
    constructor
    · intro hall r m row hr hlt hvisible
      cases model_eq hreturns hr hvisible.model
      exact hall (r, row) ((hitem r row).mpr ⟨hr, hlt, hvisible⟩)
    · rintro hall ⟨r, row⟩ hmem
      obtain ⟨hr, hlt, hvisible⟩ := (hitem r row).mp hmem
      exact hall r (models r) row hr hlt hvisible
  refine ⟨pages, hpages, ?_⟩
  rw [hsubset, Paging.items_subset_rest_iff hnodup, hk', hempty, or_assoc]

/-- The cursor after the first of the two contacts: the grant behind them is returned. -/
theorem secondUser_later :
    ∃ pages, Follows Seed.service trashed secondUser registered {} (fun _ => 1) 0
        (some (cursorText "contact" 1)) pages ∧
      ∀ r m row, Asked registered ownFilter r → "contact" < r →
        Visible Seed.service trashed secondUser (criteria ownFilter) r m row →
          item r m row ∈ pages.flatMap Page.items := by
  obtain ⟨models, rows, hreturns, hcontacts⟩ := returns_trashed
  obtain ⟨pages, hpages, hlater⟩ := @later_returned_iff Seed.service trashed secondUser registered {}
    ownFilter models rows hreturns (by decide) (by decide) (fun _ => 1) (fun _ => Nat.le_refl 1)
    "contact" (by decide) (by decide) 1
  exact ⟨pages, hpages, hlater.mpr (Or.inr (Or.inl
    ⟨Or.inr ⟨by decide, by decide, by decide⟩, hcontacts⟩))⟩

theorem eq_empty_of_lengths {result : Except Response Page}
    (h : result.toOption.map (fun page => (page.items.length, page.count, page.cursorNext)) =
      some (0, 0, none)) : result = .ok {} := by
  cases result with
  | error answer => cases h
  | ok page =>
      obtain ⟨items, count, cursorNext⟩ := page
      simp only [Except.toOption, Option.map_some, Option.some.injEq, Prod.mk.injEq,
        List.length_eq_zero_iff] at h
      rw [h.1, h.2.1, h.2.2]

/-- The same cursor after one of the contacts was purged: the answer is an empty page without a cursor,
and the grant is hidden. -/
theorem purged_hides :
    Follows Seed.service purged secondUser registered {} (fun _ => 1) 0
        (some (cursorText "contact" 1)) [{}] ∧
      Asked registered ownFilter "grant" ∧ "contact" < "grant" ∧
      ∃ row, Visible Seed.service purged secondUser (criteria ownFilter) "grant" .grant row := by
  refine ⟨.last (eq_empty_of_lengths (by decide +kernel)) rfl,
    Or.inr ⟨by decide, by decide, by decide⟩, by decide, ?_⟩
  have hgrants : (query Seed.service purged secondUser (criteria ownFilter) ("name", false)
      "grant").toOption.map (fun q => (q.1, q.2.length)) = some (.grant, 1) := by decide +kernel
  cases hquery : query Seed.service purged secondUser (criteria ownFilter) ("name", false) "grant" with
  | error answer =>
      rw [hquery] at hgrants
      cases hgrants
  | ok q =>
      obtain ⟨m, rows⟩ := q
      rw [hquery] at hgrants
      simp only [Except.toOption, Option.map_some, Option.some.injEq, Prod.mk.injEq] at hgrants
      obtain ⟨rfl, hlength⟩ := hgrants
      obtain ⟨row, hrow⟩ := List.length_eq_one_iff.mp hlength
      refine ⟨row, ((query_spec hquery).2.2 row).mp ?_⟩
      rw [hrow]
      exact List.mem_singleton_self row

end Trashcan

end Apicrud
