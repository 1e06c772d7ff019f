import Apicrud.Base64
import Apicrud.Paging
import Apicrud.Isolation
import Apicrud.ListAccess
import Apicrud.Seed

/-! # Paging through the records

`find` answers a page of what a request selects, and one record more than the page holds tells it
whether to add a cursor: the offset of the next page in base64.  `page_eq` says what a page is at any
offset, `offsetOf_cursorText` that a cursor is read as it was written, and `find_paging_complete` that the
pages give every record once, in order, whatever the limits. -/

namespace Apicrud

open Relational

namespace AccessControl

variable {db : Database} {acc : Access}

theorem mem_keep {conds : Option (List AccessControl.Condition)} {rows : List Row} {row : Row} :
    row ∈ AccessControl.keep db acc conds rows ↔
      row ∈ rows ∧ ∀ cs, conds = some cs → AccessControl.Passes db acc cs row := by
  cases conds with
  | none => simp [AccessControl.keep]
  | some cs => simp [AccessControl.keep]

theorem keep_sublist (conds : Option (List AccessControl.Condition)) (rows : List Row) :
    (AccessControl.keep db acc conds rows).Sublist rows := by
  cases conds with
  | none => exact List.Sublist.refl rows
  | some cs => exact List.filter_sublist

end AccessControl

/-- The tables of records that can be disabled hold no row twice. -/
theorem rows_nodup (db : Database) {m : Model} (hstatus : m.Has "status") : (db.rows m).Nodup := by
  have hkey : ["id"] ∈ schema.unique m ∧ "id" ∈ schema.notNull m := by
    revert hstatus
    cases m <;> decide
  have hunique := (db.2.2 m (schema.complete m)).unique ["id"] hkey.1
  refine hunique.imp_of_mem fun {row row'} hrow _ hclash heq => hclash ⟨fun c hc => ?_, fun c _ => ?_⟩
  · rw [List.mem_singleton.mp hc]
    exact db.ne_none hrow hkey.2
  · rw [heq]

namespace BasicCrud

/-! ### Cursors -/

/-- `self._tob64('cursor:%d' % offset)` -/
def cursorText (offset : ℕ) : String := Base64.ofText ("cursor:" ++ Nat.repr offset)

/-- `int(self._fromb64(cursor).split(':')[1])`; `none` where it raises. -/
def offsetOf (cursor : String) : Option ℤ :=
  (Base64.toText cursor).bind fun text => ((Text.split text ':')[1]?).bind Text.int

/-- The text of `cursor_next`. -/
def Page.cursor (page : Page) : Option String := page.cursorNext.map cursorText

/-- A cursor is read as it was written. -/
theorem offsetOf_cursorText (offset : ℕ) : offsetOf (cursorText offset) = some (offset : ℤ) := by
  have hdigit : ∀ c ∈ (Nat.repr offset).toList, c.isDigit = true := by
    rw [Nat.toList_repr]
    exact fun c hc => Nat.isDigit_of_mem_toDigits (by decide) (by decide) hc
  have hascii : ∀ c ∈ ("cursor:" ++ Nat.repr offset).toList, c.toNat < 128 := by
    intro c hc
    rw [String.toList_append, List.mem_append] at hc
    rcases hc with hc | hc
    · revert c
      simp
    · have hle := hdigit c hc
      rw [Char.isDigit, Bool.and_eq_true, decide_eq_true_iff, decide_eq_true_iff] at hle
      have hnine : c.toNat ≤ 57 := UInt32.le_iff_toNat_le.mp hle.2
      omega
  have hplain : ':' ∉ (Nat.repr offset).toList := fun h => absurd (hdigit ':' h) (by decide)
  have hsplit : Text.split ("cursor:" ++ Nat.repr offset) ':' = ["cursor", Nat.repr offset] := by
    have htext : "cursor:" ++ Nat.repr offset =
        String.ofList ("cursor".toList ++ ':' :: (Nat.repr offset).toList) := by
      apply String.toList_injective
      simp
    rw [htext, Text.split_append (by decide) hplain, String.ofList_toList, String.ofList_toList]
  have hpart : ["cursor", Nat.repr offset][1]? = some (Nat.repr offset) := rfl
  rw [offsetOf, cursorText, Base64.toText_ofText hascii, Option.bind_some, hsplit, hpart,
    Option.bind_some, Text.int_repr]

variable (svc : Service)

/-- The check that `find` makes before it reads the cursor. -/
def mayFind (db : Database) (acc : Access) (m : Model) : Except Response Bool :=
  if m = .account then .ok true
  else Checks.orElse (AccessControl.withPermission svc.policies db acc m 'r'
    { ownerUid := Val.ofOption acc.uid }) fun _ => .raised

/-- `find` with a cursor, which takes the place of a given offset. -/
def findAt (db : Database) (acc : Access) (m : Model) (args : FindArgs) (cursor : Option String) :
    Except Response Page :=
  match cursor with
  | none => find svc db acc m args
  | some cursor =>
      match offsetOf cursor with
      | some (.ofNat offset) => find svc db acc m { args with offset := offset }
      -- the database refuses an offset below zero
      | some (.negSucc _) => do
          let _ ← find svc db acc m { args with offset := 0 }
          .error dbAbort
      | none => do
          let allowed ← mayFind svc db acc m
          Checks.ensure (allowed = true) (.message "access denied" 403)
          .error .raised

/-! ### The result of a request -/

/-- The query of a request with its filter. -/
def queried (db : Database) (acc : Access) (m : Model) (args : FindArgs) (filter : Dict) :
    Except Response (List Row) := do
  let rows ← select db m args filter
  let conds ← Checks.orElse (AccessControl.withFilter svc.policies acc m 'r') fun _ => .raised
  Checks.ensure (((conds.getD []).filter (· = .referred)).length ≤ 1) dbAbort
  pure (AccessControl.keep db acc conds rows)

/-- All records that a request selects, in order; the answer where it makes no query. -/
def results (db : Database) (acc : Access) (m : Model) (args : FindArgs) :
    Except (Except Response Page) (List Row) := do
  let allowed ← Checks.orElse (mayFind svc db acc m) .error
  Checks.ensure (allowed = true) (.error (.message "access denied" 403))
  let filter ← filterOf db args
  Checks.orElse (queried svc db acc m args filter) .error

/-- The page of a result, or the answer that comes before it. -/
def respond (result : Except (Except Response Page) (List Row))
    (serve : List Row → Except Response Page) : Except Response Page :=
  match result with
  | .ok rows => serve rows
  | .error answer => answer

variable {svc} {db : Database} {acc : Access} {m : Model} {args : FindArgs} {rows : List Row}

/-- `find` answers a page of the result, which neither the offset nor the limit has a part in. -/
theorem find_eq (svc : Service) (db : Database) (acc : Access) (m : Model) (args : FindArgs)
    (offset limit : ℕ) : find svc db acc m { args with offset := offset, limit := limit } =
      respond (results svc db acc m args)
        (page svc.policies db acc m { args with offset := offset, limit := limit }) := by
  have hallowed : ∀ f : Bool → Except Response Page, (do
      let allowed ← if m = .account then .ok true
        else Checks.orElse (AccessControl.withPermission svc.policies db acc m 'r'
          { ownerUid := Val.ofOption acc.uid }) fun _ => Response.raised
      f allowed) = mayFind svc db acc m >>= f := by
    intro f
    unfold mayFind
    split_ifs <;> rfl
  have hfilter : filterOf db { args with offset := offset, limit := limit } = filterOf db args := rfl
  have hselect : ∀ filter, select db m { args with offset := offset, limit := limit } filter =
    select db m args filter := fun _ => rfl
  unfold find results queried
  rw [hallowed, hfilter]
  simp only [hselect]
  cases mayFind svc db acc m with
  | error refused => rfl
  | ok allowed =>
      cases allowed with
      | false => rfl
      | true =>
          cases filterOf db args with
          | error early => rfl
          | ok filter =>
              simp only [Checks.ensure, if_true, bind, Except.bind]
              cases select db m args filter with
              | error answer => rfl
              | ok selected =>
                  simp only
                  cases AccessControl.withFilter svc.policies acc m 'r' with
                  | error e => rfl
                  | ok conds =>
                      simp only [Checks.orElse]
                      split_ifs <;> rfl

/-! ### The records of a page -/

/-- Records with an owner have one. -/
theorem owner_some {row : Row} (hrow : row ∈ db.rows m) (hm : m.hasOwner = true) :
    ∃ owner, ownerOf db row = some owner := by
  have hforeign : ∃ fk ∈ schema.foreign m, fk.column = "uid" ∧ fk.target = .person ∧
      "uid" ∈ schema.notNull m := by
    revert hm
    cases m <;> decide
  obtain ⟨fk, hfk, hcolumn, htarget, hnull⟩ := hforeign
  have hfound : (ownerOf db row).isSome = true := by
    rcases db.refers hrow hfk with hnone | ⟨person, hperson, hid⟩
    · exact absurd (hcolumn ▸ hnone) (db.ne_none hrow hnull)
    · rw [htarget] at hperson
      rw [hcolumn] at hid
      rw [ownerOf, List.find?_isSome]
      exact ⟨person, hperson, decide_eq_true hid⟩
  exact Option.isSome_iff_exists.mp hfound

/-- The fields of a record hold its category, if there is one. -/
theorem get_category (db : Database) (m : Model) (row : Row) :
    (asDict db m row).get "category_id" = if m.Has "category_id" then row "category_id" else .none := by
  cases m <;>
    simp [asDict, Model.Has, Model.columns, Model.restExclude, Model.restRelated, Model.restHybrid]

theorem category_some {row : Row} (hrow : row ∈ db.rows m)
    (hcategory : ((asDict db m row).get "category_id").truthy = true) :
    ∃ category, one ((db.rows .category).filter fun c =>
      decide (c "id" = (asDict db m row).get "category_id")) = .ok category := by
  rw [get_category] at hcategory ⊢
  by_cases hm : m.Has "category_id"
  · rw [if_pos hm] at hcategory ⊢
    have hforeign : ∃ fk ∈ schema.foreign m, fk.column = "category_id" ∧ fk.target = .category := by
      revert hm
      cases m <;> decide
    obtain ⟨fk, hfk, hcolumn, htarget⟩ := hforeign
    rcases db.refers hrow hfk with hnone | ⟨category, hmem, hid⟩
    · rw [hcolumn] at hnone
      rw [hnone] at hcategory
      cases hcategory
    · rw [htarget] at hmem
      rw [hcolumn] at hid
      refine ⟨category, one_eq_ok.mpr (db.filter_column
        (by decide : ["id"] ∈ schema.unique .category) (by decide) (fun r _ hr => ?_) hmem
        (decide_eq_true hid))⟩
      exact (of_decide_eq_true hr).trans hid.symm
  · rw [if_neg hm] at hcategory
    cases hcategory

/-- What the actions on a listed record are evaluated for. -/
def itemTarget (pol : Policies) (db : Database) (m : Model) (row : Row) : Target where
  ownerUid := (asDict db m row).get "uid"
  membership := some pol.privateResource
  id := (asDict db m row).get "id"
  privacy := (asDict db m row).get "privacy"

/-- A record whose actions are evaluated is listed. -/
theorem item_ok {pol : Policies} {row : Row} (hrow : row ∈ db.rows m)
    (hrbac : ∃ actions, AccessControl.rbacPermissions pol db acc m (itemTarget pol db m row) =
      .ok actions) : ∃ it, item pol db acc m row = .ok it := by
  obtain ⟨actions, hactions⟩ := hrbac
  rw [itemTarget] at hactions
  unfold item
  -- the names of the owner and of the category are no part of what the actions depend on
  by_cases hcategory : ((asDict db m row).get "category_id").truthy = true
  · obtain ⟨category, hone⟩ := category_some hrow hcategory
    by_cases howned : m.hasOwner = true
    · obtain ⟨owner, howner⟩ := owner_some hrow howned
      simp [bind, Except.bind, howned, howner, hcategory, hone, hactions, Checks.orElse]
    · simp [bind, Except.bind, howned, hcategory, hone, hactions, Checks.orElse]
  · by_cases howned : m.hasOwner = true
    · obtain ⟨owner, howner⟩ := owner_some hrow howned
      simp [bind, Except.bind, howned, howner, hcategory, hactions, Checks.orElse]
    · simp [bind, Except.bind, howned, hcategory, hactions, Checks.orElse]

/-! ### One page -/

theorem item_record {pol : Policies} {row : Row} {it : Item} (h : item pol db acc m row = .ok it) :
    it.record = row := by
  unfold item at h
  simp only [bind, Except.bind, pure, Except.pure] at h
  repeat' split at h
  all_goals
    cases h
    try rfl

/-- The items of records are those of the records, in order. -/
theorem items_record {pol : Policies} {rows : List Row} {its : List Item}
    (h : rows.mapM (item pol db acc m) = .ok its) : its.map Item.record = rows := by
  induction rows generalizing its with
  | nil =>
      cases h
      rfl
  | cons row rows ih =>
      rw [List.mapM_cons] at h
      obtain ⟨it, hit, h⟩ := Checks.bind_eq_ok.mp h
      obtain ⟨its', hits, h⟩ := Checks.bind_eq_ok.mp h
      cases h
      rw [List.map_cons, item_record hit, ih hits]

theorem items_ok {pol : Policies} {rows : List Row}
    (hitems : ∀ row ∈ rows, ∃ it, item pol db acc m row = .ok it) :
    ∃ its, rows.mapM (item pol db acc m) = .ok its := by
  induction rows with
  | nil => exact ⟨[], rfl⟩
  | cons row rows ih =>
      obtain ⟨it, hit⟩ := hitems row List.mem_cons_self
      obtain ⟨its, hits⟩ := ih fun r hr => hitems r (List.mem_cons_of_mem _ hr)
      exact ⟨it :: its, by rw [List.mapM_cons, hit, hits]; rfl⟩

/-- What a page is: so many of the records at the offset, and a cursor if there are more. -/
theorem page_ok {pol : Policies} {offset limit : ℕ} {p : Page}
    (h : page pol db acc m { args with offset := offset, limit := limit } rows = .ok p) :
    p.items.map Item.record = (rows.drop offset).take limit ∧ p.count = rows.length ∧
      p.cursorNext = if offset + limit < rows.length then some (offset + limit) else none := by
  obtain ⟨its, hits, h⟩ := Checks.bind_eq_ok.mp h
  cases h
  rw [List.take_take, Nat.min_eq_left (Nat.le_succ limit)] at hits
  have hrecords : its.map Item.record = (rows.drop offset).take limit := items_record hits
  have hlength := congrArg List.length hrecords
  rw [List.length_map, List.length_take, List.length_drop] at hlength
  have hmore : limit < ((rows.drop offset).take (limit + 1)).length ↔
      offset + limit < rows.length := by
    rw [List.length_take, List.length_drop]
    omega
  -- a first page that is not full holds all the records
  have hcount : ¬ (¬ limit < ((rows.drop offset).take (limit + 1)).length ∧
      its.length < rows.length ∧ its.length < limit ∧ offset = 0) := by
    rw [hmore]
    omega
  exact ⟨hrecords, if_neg hcount, if_congr hmore rfl rfl⟩

/-- A page of records that are listed is answered. -/
theorem page_answers {pol : Policies} (hitems : ∀ row ∈ rows, ∃ it, item pol db acc m row = .ok it)
    (offset limit : ℕ) :
    ∃ p, page pol db acc m { args with offset := offset, limit := limit } rows = .ok p := by
  have hsub : ((rows.drop offset).take (limit + 1)).take limit ⊆ rows :=
    ((List.take_sublist _ _).trans ((List.take_sublist _ _).trans (List.drop_sublist _ _))).subset
  obtain ⟨its, hits⟩ := items_ok fun row hrow => hitems row (hsub hrow)
  exact ⟨_, Checks.bind_eq_ok.mpr ⟨its, hits, rfl⟩⟩

/-! ### Following the cursors -/

/-- The pages of a listing: the request number `n` is made with the limit `limits n`, at the cursor of the
page before. -/
def Follows (svc : Service) (db : Database) (acc : Access) (m : Model) (args : FindArgs)
    (limits : ℕ → ℕ) : ℕ → Option String → List Page → Prop :=
  Paging.Paged
    (fun n c page => findAt svc db acc m { args with limit := limits n } c = .ok page)
    fun page => page.cursor.map some

theorem Follows.unique {limits : ℕ → ℕ} {n : ℕ} {c : Option String} {pages pages' : List Page}
    (h : Follows svc db acc m args limits n c pages)
    (h' : Follows svc db acc m args limits n c pages') : pages = pages' :=
  Paging.Paged.unique (fun _ _ _ _ hpage hpage' => Except.ok.inj (hpage.symm.trans hpage')) h h'

/-- The cursor stands for the offset. -/
def At (args : FindArgs) (c : Option String) (offset : ℕ) : Prop :=
  c = none ∧ args.offset = offset ∨ c = some (cursorText offset)

/-- The request at a cursor. -/
theorem findAt_eq (hresults : results svc db acc m args = .ok rows) {c : Option String} {offset : ℕ}
    (hat : At args c offset) (limit : ℕ) : findAt svc db acc m { args with limit := limit } c =
      page svc.policies db acc m { args with offset := offset, limit := limit } rows := by
  have hpage := find_eq svc db acc m args offset limit
  rw [hresults, respond] at hpage
  rcases hat with ⟨rfl, rfl⟩ | rfl
  · exact hpage
  · rw [findAt]
    simp only [offsetOf_cursorText]
    exact hpage

/-- The result holds records of the model, none twice. -/
theorem results_spec (h : results svc db acc m args = .ok rows) :
    rows.Nodup ∧ ∀ row ∈ rows, row ∈ db.rows m := by
  obtain ⟨_, _, h⟩ := Checks.bind_eq_ok.mp h
  obtain ⟨_, _, h⟩ := Checks.bind_eq_ok.mp h
  obtain ⟨filter, _, h⟩ := Checks.bind_eq_ok.mp h
  rw [Checks.orElse_eq_ok] at h
  obtain ⟨selected, hselected, h⟩ := Checks.bind_eq_ok.mp h
  obtain ⟨conds, _, h⟩ := Checks.bind_eq_ok.mp h
  obtain ⟨_, _, h⟩ := Checks.bind_eq_ok.mp h
  cases h
  obtain ⟨_, _, hselected⟩ := Checks.bind_eq_ok.mp hselected
  obtain ⟨_, _, hselected⟩ := Checks.bind_eq_ok.mp hselected
  obtain ⟨_, _, hselected⟩ := Checks.bind_eq_ok.mp hselected
  obtain ⟨_, hstatus, hselected⟩ := Checks.bind_eq_ok.mp hselected
  rw [Checks.ensure_eq_ok] at hstatus
  cases hselected
  have hstored : ∀ p : Row → Bool, ∀ column desc,
      (ordered column desc ((db.rows m).filter p)).Nodup ∧
        ∀ row ∈ ordered column desc ((db.rows m).filter p), row ∈ db.rows m := by
    intro p column desc
    have hperm : (ordered column desc ((db.rows m).filter p)).Perm ((db.rows m).filter p) :=
      List.perm_insertionSort ..
    exact ⟨hperm.nodup_iff.mpr ((rows_nodup db hstatus).filter p),
      fun row hrow => (List.mem_filter.mp (hperm.mem_iff.mp hrow)).1⟩
  constructor
  · exact (hstored _ _ _).1.sublist (AccessControl.keep_sublist _ _)
  · exact fun row hrow => (hstored _ _ _).2 row ((AccessControl.mem_keep.mp hrow).1)

/-- The next cursor stands for the offset behind the page. -/
theorem cursor_cases {offset limit : ℕ} {p : Page}
    (hnext : p.cursorNext = if offset + limit < rows.length then some (offset + limit) else none) :
    p.cursor.map some = none ∧ rows.length ≤ offset + limit ∨
      p.cursor.map some = some (some (cursorText (offset + limit))) ∧ offset + limit < rows.length := by
  by_cases hmore : offset + limit < rows.length
  · rw [if_pos hmore] at hnext
    exact Or.inr ⟨by simp [Page.cursor, hnext], hmore⟩
  · rw [if_neg hmore] at hnext
    exact Or.inl ⟨by simp [Page.cursor, hnext], by omega⟩

/-- The pages that are followed from a cursor hold what is left there, the induction being on them. -/
theorem Follows.records (hresults : results svc db acc m args = .ok rows) {limits : ℕ → ℕ} {n : ℕ}
    {c : Option String} {pages : List Page} (h : Follows svc db acc m args limits n c pages)
    {offset : ℕ} (hat : At args c offset) :
    (pages.flatMap Page.items).map Item.record = rows.drop offset ∧
      ∀ p ∈ pages, p.count = rows.length := by
  induction h generalizing offset with
  | last hserve hnone =>
      rw [findAt_eq hresults hat] at hserve
      obtain ⟨hitems, hcount, hnext⟩ := page_ok hserve
      obtain ⟨-, hall⟩ | ⟨hcursor, -⟩ := cursor_cases hnext
      · rw [List.take_of_length_le (by rw [List.length_drop]; omega)] at hitems
        exact ⟨by rw [List.flatMap_singleton, hitems], List.forall_mem_singleton.mpr hcount⟩
      · rw [hcursor] at hnone
        cases hnone
  | more hserve hsome hrest ih =>
      rw [findAt_eq hresults hat] at hserve
      obtain ⟨hitems, hcount, hnext⟩ := page_ok hserve
      obtain ⟨hcursor, -⟩ | ⟨hcursor, -⟩ := cursor_cases hnext
      · rw [hcursor] at hsome
        cases hsome
      · rw [hcursor, Option.some.injEq] at hsome
        obtain ⟨hrest, hcounts⟩ := ih (Or.inr hsome.symm)
        refine ⟨?_, List.forall_mem_cons.mpr ⟨hcount, hcounts⟩⟩
        rw [List.flatMap_cons, List.map_append, hitems, hrest, ← List.drop_drop, List.take_append_drop]

/-- The pages of a result: they give every record once, in order, each with the number of all, and only
the last one has no cursor; a cursor is read as the offset it was written for. -/
structure Complete (rows : List Row) (pages : List Page) : Prop where
  records : (pages.flatMap Page.items).map Item.record = rows
  once : rows.Nodup
  counted : ∀ page ∈ pages, page.count = rows.length
  last : ∃ init last, pages = init ++ [last] ∧ last.cursor = none ∧
    ∀ page ∈ init, page.cursor ≠ none
  decoded : ∀ page ∈ pages, page.cursor.bind offsetOf = page.cursorNext.map Int.ofNat

/-- Following the cursors from the first page, whatever the limits, the listing is complete, and it
ends where the actions on every record are evaluated. -/
theorem find_paging_complete (hresults : results svc db acc m args = .ok rows) (hoffset : args.offset = 0)
    {limits : ℕ → ℕ} (hlimits : ∀ n, 1 ≤ limits n) :
    (∀ pages, Follows svc db acc m args limits 0 none pages → Complete rows pages) ∧
      ((∀ row ∈ rows, ∃ actions, AccessControl.rbacPermissions svc.policies db acc m
        (itemTarget svc.policies db m row) = .ok actions) →
      ∃ pages, Follows svc db acc m args limits 0 none pages) := by
  obtain ⟨hnodup, hstored⟩ := results_spec hresults
  constructor
  · intro pages hpages
    obtain ⟨hrecords, hcount⟩ := hpages.records hresults (Or.inl ⟨rfl, hoffset⟩)
    refine ⟨hrecords, hnodup, hcount, ?_, fun p _ => ?_⟩
    · obtain ⟨init, last, hsplit, hlast, hinit⟩ := hpages.last_only
      exact ⟨init, last, hsplit, Option.map_eq_none_iff.mp hlast,
        fun p hp hnone => hinit p hp (Option.map_eq_none_iff.mpr hnone)⟩
    · cases hnext : p.cursorNext with
      | none => simp [Page.cursor, hnext]
      | some offset => simp [Page.cursor, hnext, offsetOf_cursorText]
  · intro hrbac
    have hitems : ∀ row ∈ rows, ∃ it, item svc.policies db acc m row = .ok it :=
      fun row hrow => item_ok (hstored row hrow) (hrbac row hrow)
    -- what is left at a cursor are the records from its offset on
    have hstep : ∀ n c l, (∃ offset, At args c offset ∧ l = rows.drop offset) →
        ∃ p, findAt svc db acc m { args with limit := limits n } c = .ok p ∧
          (p.cursor.map some = none ∧ p.items.map Item.record = l ∨
            ∃ c' l', p.cursor.map some = some c' ∧ p.items.map Item.record ≠ [] ∧
              (∃ offset, At args c' offset ∧ l' = rows.drop offset) ∧
              l = p.items.map Item.record ++ l') := by
      rintro n c l ⟨offset, hat, rfl⟩
      obtain ⟨p, hp⟩ := page_answers hitems offset (limits n)
      obtain ⟨hrecords, -, hnext⟩ := page_ok hp
      refine ⟨p, (findAt_eq hresults hat _).trans hp, ?_⟩
      obtain ⟨hcursor, hall⟩ | ⟨hcursor, hmore⟩ := cursor_cases hnext
      · refine Or.inl ⟨hcursor, hrecords.trans (List.take_of_length_le ?_)⟩
        rw [List.length_drop]
        omega
      · refine Or.inr ⟨_, _, hcursor, ?_, ⟨_, Or.inr rfl, rfl⟩, ?_⟩
        · have hlimit := hlimits n
          rw [hrecords, ne_eq, List.take_eq_nil_iff, List.drop_eq_nil_iff]
          omega
        · rw [hrecords, ← List.drop_drop, List.take_append_drop]
    obtain ⟨pages, hpages, -⟩ := Paging.Paged.exists_of_left (fun p : Page => p.items.map Item.record)
      (fun c l => ∃ offset, At args c offset ∧ l = rows.drop offset) hstep
      ⟨0, Or.inl ⟨rfl, hoffset⟩, rfl⟩ 0
    exact ⟨pages, hpages⟩

/-! ### A listing -/

/-- A session of the second user of the seeded installation. -/
def lister : Access := { auth := some ["user"], uid := some "u-0002" }

/-- The two contacts that it may see, a page for each. -/
theorem contacts_paged : ∃ rows, rows.length = 2 ∧
    (∃ pages, Follows Seed.service Seed.shared lister .contact {} (fun _ => 1) 0 none pages) ∧
    ∀ pages, Follows Seed.service Seed.shared lister .contact {} (fun _ => 1) 0 none pages →
      Complete rows pages := by
  have hfound : (results Seed.service Seed.shared lister .contact {}).toOption.map (fun rows =>
      (rows.length, rows.all fun row => (AccessControl.rbacPermissions Seed.service.policies Seed.shared
        lister .contact (itemTarget Seed.service.policies Seed.shared .contact row)).toOption.isSome)) =
      some (2, true) := by decide +kernel
  cases hresults : results Seed.service Seed.shared lister .contact {} with
  | error answer =>
      rw [hresults] at hfound
      cases hfound
  | ok rows =>
      rw [hresults, Except.toOption, Option.map_some, Option.some.injEq, Prod.mk.injEq,
        List.all_eq_true] at hfound
      have hcomplete := find_paging_complete hresults rfl fun _ => Nat.le_refl 1
      refine ⟨rows, hfound.1, hcomplete.2 fun row hrow => ?_, hcomplete.1⟩
      have hsome := hfound.2 row hrow
      cases hactions : AccessControl.rbacPermissions Seed.service.policies Seed.shared lister .contact
          (itemTarget Seed.service.policies Seed.shared .contact row) with
      | error e =>
          rw [hactions] at hsome
          cases hsome
      | ok actions => exact ⟨actions, rfl⟩

end BasicCrud

end Apicrud
