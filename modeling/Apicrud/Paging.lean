import Mathlib

/-! # Paging through sections

A listing of several sections is answered in pages.  A page takes what fits of each section in turn, from
an offset into the first one, and stops at the next item: the section and the offset of that item are the
cursor of the page after it.  The offset goes on to the next section until the page holds an item.

`rest` is what a position has left, and `fill_spec` that a page takes the first of it and leaves the
remainder to its cursor.  `Paged` follows the cursors: what every page leaves to the next one is returned
in the end (`Paged.exists_of_left`), and only the last page has no cursor (`Paged.last_only`). -/

namespace Paging

/-! ### One page -/

section Fill

variable {ι α : Type*}

/-- The items of the sections. -/
def items (sections : List (ι × List α)) : List (ι × α) :=
  sections.flatMap fun s => s.2.map (Prod.mk s.1)

/-- What is left at an offset into the first section. -/
def rest : List (ι × List α) → ℕ → List (ι × α)
  | [], _ => []
  | (i, rows) :: sections, k =>
      (rows.drop k).map (Prod.mk i) ++ rest sections (if rows.drop k = [] then k else 0)

/-- A page that is filled up, and the position of the item where it stops. -/
def fill (limit : ℕ) : List (ι × List α) → List (ι × α) → ℕ → List (ι × α) × Option (ι × ℕ)
  | [], page, _ => (page, none)
  | (i, rows) :: sections, page, k =>
      let room := limit - page.length
      if room < (rows.drop k).length then
        (page ++ ((rows.drop k).take room).map (Prod.mk i), some (i, k + room))
      else
        let page := page ++ (rows.drop k).map (Prod.mk i)
        fill limit sections page (if page = [] then k else 0)

theorem rest_zero (sections : List (ι × List α)) : rest sections 0 = items sections := by
  induction sections with
  | nil => rfl
  | cons s sections ih =>
      rw [rest, ite_self, ih]
      rfl

/-- Where an item is left in the first section, the others are left whole. -/
theorem rest_of_lt {i : ι} {rows : List α} (sections : List (ι × List α)) {k : ℕ}
    (h : k < rows.length) :
    rest ((i, rows) :: sections) k = (rows.drop k).map (Prod.mk i) ++ items sections := by
  have hsome : rows.drop k ≠ [] := by
    rw [ne_eq, List.drop_eq_nil_iff]
    omega
  rw [rest, if_neg hsome, rest_zero]

theorem rest_sublist (sections : List (ι × List α)) (k : ℕ) :
    (rest sections k).Sublist (items sections) := by
  induction sections generalizing k with
  | nil => exact List.Sublist.refl _
  | cons s sections ih =>
      exact ((List.drop_sublist k s.2).map _).append (ih _)

/-- A position loses items exactly when its offset is carried on into a section that has some. -/
theorem rest_eq_items_iff (sections : List (ι × List α)) (k : ℕ) :
    rest sections k = items sections ↔ k = 0 ∨ items sections = [] := by
  constructor
  · intro h
    by_contra hcon
    rw [not_or] at hcon
    obtain ⟨hk, hitems⟩ := hcon
    induction sections with
    | nil => exact hitems rfl
    | cons s sections ih =>
        obtain ⟨i, rows⟩ := s
        have hlength := congrArg List.length h
        have hle := (rest_sublist sections (if rows.drop k = [] then k else 0)).length_le
        have hcons : items ((i, rows) :: sections) = rows.map (Prod.mk i) ++ items sections := rfl
        rw [hcons, rest, List.length_append, List.length_append, List.length_map, List.length_map,
          List.length_drop] at hlength
        have hrows : rows = [] := List.eq_nil_of_length_eq_zero (by omega)
        subst hrows
        have hnil : (List.drop k ([] : List α)) = [] := List.drop_nil
        rw [rest, if_pos hnil, hcons, hnil] at h
        exact ih h hitems
  · rintro (rfl | hnil)
    · exact rest_zero sections
    · have hsub := rest_sublist sections k
      rw [hnil] at hsub ⊢
      exact List.sublist_nil.mp hsub

theorem mem_items {sections : List (ι × List α)} {i : ι} {a : α} :
    (i, a) ∈ items sections ↔ ∃ rows, (i, rows) ∈ sections ∧ a ∈ rows := by
  simp only [items, List.mem_flatMap, List.mem_map, Prod.mk.injEq]
  constructor
  · rintro ⟨⟨i', rows⟩, hs, a', ha, rfl, rfl⟩
    exact ⟨rows, hs, ha⟩
  · rintro ⟨rows, hs, ha⟩
    exact ⟨(i, rows), hs, a, ha, rfl, rfl⟩

/-- Sections with different names and without repetitions have every item once. -/
theorem items_nodup {sections : List (ι × List α)} (hnames : (sections.map Prod.fst).Nodup)
    (hrows : ∀ s ∈ sections, s.2.Nodup) : (items sections).Nodup := by
  rw [items, List.nodup_flatMap]
  refine ⟨fun s hs => (hrows s hs).map (Prod.mk_right_injective s.1), ?_⟩
  refine (List.pairwise_map.mp hnames).imp fun {s s'} hne a ha ha' => ?_
  obtain ⟨x, -, rfl⟩ := List.mem_map.mp ha
  obtain ⟨x', -, heq⟩ := List.mem_map.mp ha'
  exact hne (congrArg Prod.fst heq).symm

theorem items_subset_rest_iff {sections : List (ι × List α)} (hnodup : (items sections).Nodup)
    (k : ℕ) : items sections ⊆ rest sections k ↔ k = 0 ∨ items sections = [] := by
  rw [← rest_eq_items_iff]
  constructor
  · intro hsubset
    exact (rest_sublist sections k).eq_of_length_le (hnodup.subperm hsubset).length_le
  · intro heq
    rw [heq]
    exact List.Subset.refl _

/-- A page takes the first of what is left, and leaves the remainder to its cursor. -/
theorem fill_spec (limit : ℕ) (sections : List (ι × List α)) (page : List (ι × α)) (k : ℕ)
    (hroom : page.length ≤ limit) (hk : page ≠ [] → k = 0) :
    ∃ taken, (fill limit sections page k).1 = page ++ taken ∧
      ((fill limit sections page k).2 = none ∧ taken = rest sections k ∨
        ∃ i k' pre rows post, (fill limit sections page k).2 = some (i, k') ∧
          sections = pre ++ (i, rows) :: post ∧ k' < rows.length ∧
          page.length + taken.length = limit ∧
          rest sections k = taken ++ rest ((i, rows) :: post) k') := by
  induction sections generalizing page k with
  | nil => exact ⟨[], (List.append_nil page).symm, Or.inl ⟨rfl, rfl⟩⟩
  | cons s sections ih =>
      obtain ⟨i, rows⟩ := s
      have hlength := List.length_drop (i := k) (l := rows)
      by_cases hfull : limit - page.length < (rows.drop k).length
      · rw [fill, if_pos hfull]
        refine ⟨_, rfl, Or.inr ⟨i, _, [], rows, sections, rfl, rfl, by omega, ?_, ?_⟩⟩
        · rw [List.length_map, List.length_take]
          omega
        · rw [rest_of_lt sections (by omega), rest_of_lt sections (by omega), ← List.append_assoc,
            ← List.map_append, ← List.drop_drop, List.take_append_drop]
      · have hoffset : (if page ++ (rows.drop k).map (Prod.mk i) = [] then k else 0) =
            if rows.drop k = [] then k else 0 := by
          by_cases hpage : page = []
          · exact if_congr (by rw [hpage, List.nil_append, List.map_eq_nil_iff]) rfl rfl
          · rw [hk hpage, ite_self, ite_self]
        obtain ⟨taken, htaken, hnext⟩ := ih (page ++ (rows.drop k).map (Prod.mk i))
          (if page ++ (rows.drop k).map (Prod.mk i) = [] then k else 0)
          (by rw [List.length_append, List.length_map]; omega) fun hne => if_neg hne
        rw [fill, if_neg hfull]
        refine ⟨(rows.drop k).map (Prod.mk i) ++ taken, by rw [htaken, List.append_assoc], ?_⟩
        rw [rest, ← hoffset]
        rcases hnext with ⟨hnone, hrest⟩ | ⟨i', k', pre, rows', post, hsome, rfl, hlt, hfit, hrest⟩
        · exact Or.inl ⟨hnone, by rw [hrest]⟩
        · refine Or.inr ⟨i', k', (i, rows) :: pre, rows', post, hsome, rfl, hlt, ?_, ?_⟩
          · rw [List.length_append, List.length_map] at hfit ⊢
            omega
          · rw [hrest, List.append_assoc]

end Fill

/-! ### Following the cursors -/

section Paged

variable {β γ A : Type*}

/-- The pages that are answered from a cursor on, each at the cursor of the one before; the last one has
none.  The requests are numbered. -/
inductive Paged (serve : ℕ → γ → A → Prop) (next : A → Option γ) : ℕ → γ → List A → Prop
  | last {n : ℕ} {c : γ} {page : A} (hserve : serve n c page) (hnone : next page = none) :
      Paged serve next n c [page]
  | more {n : ℕ} {c c' : γ} {page : A} {pages : List A} (hserve : serve n c page)
      (hsome : next page = some c') (hrest : Paged serve next (n + 1) c' pages) :
      Paged serve next n c (page :: pages)

variable {serve : ℕ → γ → A → Prop} {next : A → Option γ}

/-- The requests decide the pages. -/
theorem Paged.unique (hserve : ∀ n c page page', serve n c page → serve n c page' → page = page')
    {n : ℕ} {c : γ} {pages pages' : List A} (h : Paged serve next n c pages)
    (h' : Paged serve next n c pages') : pages = pages' := by
  induction h generalizing pages' with
  | last hfirst hnone =>
      cases h' with
      | last hfirst' _ => rw [hserve _ _ _ _ hfirst hfirst']
      | more hfirst' hsome' _ =>
          rw [hserve _ _ _ _ hfirst hfirst', hsome'] at hnone
          cases hnone
  | more hfirst hsome _ ih =>
      cases h' with
      | last hfirst' hnone' =>
          rw [hserve _ _ _ _ hfirst hfirst', hnone'] at hsome
          cases hsome
      | more hfirst' hsome' hrest' =>
          rw [← hserve _ _ _ _ hfirst hfirst', hsome] at hsome'
          cases hsome'
          rw [hserve _ _ _ _ hfirst hfirst', ih hrest']

/-- Only the last page has no cursor. -/
theorem Paged.last_only {n : ℕ} {c : γ} {pages : List A} (h : Paged serve next n c pages) :
    ∃ init last, pages = init ++ [last] ∧ next last = none ∧ ∀ page ∈ init, next page ≠ none := by
  induction h with
  | last _ hnone => exact ⟨[], _, rfl, hnone, fun _ h => nomatch h⟩
  | more _ hsome _ ih =>
      obtain ⟨init, last, rfl, hlast, hinit⟩ := ih
      refine ⟨_ :: init, last, rfl, hlast, List.forall_mem_cons.mpr ⟨?_, hinit⟩⟩
      rw [hsome]
      exact Option.some_ne_none _

/-- Where every page that has a cursor holds something, and leaves the remainder to it, the pages come to
an end and hold all that was left. -/
theorem Paged.exists_of_left (content : A → List β) (left : γ → List β → Prop)
    (hstep : ∀ n c l, left c l → ∃ page, serve n c page ∧
      (next page = none ∧ content page = l ∨ ∃ c' l', next page = some c' ∧ content page ≠ [] ∧
        left c' l' ∧ l = content page ++ l'))
    {c : γ} {l : List β} (h : left c l) (n : ℕ) :
    ∃ pages, Paged serve next n c pages ∧ pages.flatMap content = l := by
  generalize hlength : l.length = length
  induction length using Nat.strongRecOn generalizing c l n with
  | ind length ih =>
      obtain ⟨page, hserve, ⟨hnone, hall⟩ | ⟨c', l', hsome, hne, hleft, rfl⟩⟩ := hstep n c l h
      · exact ⟨[page], .last hserve hnone, by simp [hall]⟩
      · have hpos := List.length_pos_of_ne_nil hne
        rw [List.length_append] at hlength
        obtain ⟨pages, hpages, hcontent⟩ := ih l'.length (by omega) hleft (n + 1) rfl
        exact ⟨page :: pages, .more hserve hsome hpages, by simp [hcontent]⟩

end Paged

end Paging
