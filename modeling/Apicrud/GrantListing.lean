import Apicrud.FindPaging
import Apicrud.GrantCache
import Apicrud.Listing

/-! # The list of grants

`GrantController.find` puts under every default name the first record of that name among those that the row
query gives, or the default where there is none.  `Grants.get` reads the grant in force of one user.  The list
compares names only: `Accurate` says of a name when it shows the limit of the requested user, and
`listing_enforced_iff` that this is exact. -/

namespace Apicrud

open Relational Dict

namespace Grants

/-! ### The list -/

variable (g : Setting)

/-- The keys of `DEFAULT_GRANTS`. -/
def Setting.keys : List String := (g.defaults.map Prod.fst).dedup

/-- What `find` answers with. -/
structure Listing where
  items : List Dict
  count : ℕ
  status : ℕ

/-- `json.loads(kwargs.get('filter', '{}'))` -/
def parsed (args : BasicCrud.FindArgs) : Except Response Dict :=
  match args.filter with
  | none => .ok ∅
  | some (some filter) => .ok filter
  | some none => .error (.message "invalid filter specified" 405)

/-- `kwargs.get('name') or filter.get('name')` -/
def chosen (name : Val) (filter : Dict) : Val := if name.truthy then name else filter.get "name"

/-- A name is not skipped. -/
def Selected (name : Val) (key : String) : Prop := name.truthy = true → .str key = name

instance (name : Val) (key : String) : Decidable (Selected name key) :=
  inferInstanceAs (Decidable (_ → _))

/-- The user whose grants are asked for. -/
def requested (db : Database) (acc : Access) (filter : Dict) : Except Response Val :=
  if "account_id" ∈ filter then
    match one ((db.rows .account).filter fun row =>
        decide (row "id" = filter.get "account_id")) with
    | .ok account => .ok (account "uid")
    | .error .noResultFound => .error ⟨Dict.ofList [("count", .int 0), ("items", .list []),
        ("message", .str "not found")], 404⟩
    | .error .multipleResultsFound => .error .raised
  else .ok (if (filter.get "uid").truthy then filter.get "uid" else Val.ofOption acc.uid)

/-- `''.join(sorted(list(actions)))` -/
def actionsText (actions : List Char) : String :=
  String.ofList (actions.dedup.insertionSort fun a b => a ≤ b)

/-- What is listed under a default name. -/
def entry (items : List BasicCrud.Item) (uid : Val) (rbac : String) (defaults : Limits)
    (key : String) : Dict :=
  match items.find? fun it => decide (it.fields.get "name" = .str key) with
  | some it => it.fields.set "rbac" (.str it.rbac)
  | none => Dict.ofList [("id", .str (uid.text ++ ":" ++ key)), ("uid", uid), ("name", .str key),
      ("value", .str ((defaults (.str key)).getD .none).text), ("rbac", .str rbac),
      ("status", .str "active")]

/-- `find`, with what the row query answered. -/
def find (w : World) (acc : Access) (c : Cache) (args : BasicCrud.FindArgs) (name : Val)
    (crud : Except Response BasicCrud.Page) : Except Response Listing := do
  let filter ← parsed args
  let uid ← requested w.db acc filter
  let actions ← Checks.orElse
    (AccessControl.rbacPermissions g.svc.policies w.db acc .grant { ownerUid := uid }) fun _ => .raised
  match c defaultsKey with
  | some defaults =>
      let selected := g.keys.filter fun key => decide (Selected (chosen name filter) key)
      match crud with
      | .ok page => pure ⟨selected.map (entry page.items uid (actionsText actions) defaults),
          selected.length, 200⟩
      -- an answer without items is only looked into for a selected name
      | .error answer => if selected = [] then pure ⟨[], 0, answer.status⟩ else .error .raised
  | none => .error .raised

end Grants

/-- `find`: the row query comes first, and what it raises is not caught. -/
def GrantController.find (g : Grants.Setting) (t : Grants.Turnover) (w : World) (acc : Access)
    (c : Grants.Cache) (args : BasicCrud.FindArgs) (name : Val) :
    Grants.Cache × Except Response Grants.Listing :=
  let c := Grants.construct g t c
  match BasicCrud.find g.svc w.db acc .grant args with
  | .ok page => (c, Grants.find g w acc c args name (.ok page))
  | .error answer =>
      (c, if answer = .raised then .error .raised else Grants.find g w acc c args name (.error answer))

namespace Grants

/-! ### When it shows what is enforced -/

/-- The arguments of a request with a filter or none. -/
def request (filter : Option Dict) (limit : ℕ) : BasicCrud.FindArgs :=
  { filter := filter.map some, limit := limit }

/-- The record meets what the request filters by. -/
def meets (db : Database) (filter : Option Dict) (row : Row) : Bool :=
  match BasicCrud.filterOf db { filter := filter.map some } with
  | .ok filter => decide (∀ c ∈ BasicCrud.clauses filter, c.2.Holds (row c.1))
  | .error _ => false

/-- The session sees the record. -/
def sees (pol : Policies) (db : Database) (acc : Access) (row : Row) : Bool :=
  match AccessControl.withFilter pol acc .grant 'r' with
  | .ok (some conds) => decide (AccessControl.Passes db acc conds row)
  | .ok none => true
  | .error _ => false

/-- The first grant by a name that is not disabled, meets the filter and is seen by the session. -/
def firstSeen (pol : Policies) (db : Database) (acc : Access) (filter : Option Dict) (key : String) :
    Option Row :=
  (db.rows .grant).find? fun row =>
    decide (row "name" = .str key ∧ row "status" ≠ .none ∧ row "status" ≠ .str "disabled") &&
      meets db filter row && sees pol db acc row

variable (g : Setting)

/-- A value reads as it is written: it is no number, or one in plain decimal notation. -/
def Plain (v : Val) : Prop := (g.number v).text = v.text

instance (v : Val) : Decidable (Plain g v) := inferInstanceAs (Decidable (_ = _))

/-- A session lists grants of a user: the row query answers on one page, the actions on the grants of that
user are evaluated, the user has an id other than the key of the defaults in the cache, and the cache has room
for both. -/
structure Lists (t : Turnover) (w : World) (acc : Access) (filter : Option Dict) (limit : ℕ)
    (u : Val) : Prop where
  page : ∃ p, BasicCrud.find g.svc w.db acc .grant (request filter limit) = .ok p ∧ p.cursorNext = none
  user : requested w.db acc (filter.getD ∅) = .ok u
  rbac : ∃ actions, AccessControl.rbacPermissions g.svc.policies w.db acc .grant { ownerUid := u } =
    .ok actions
  id : u.truthy = true ∧ u ≠ defaultsKey
  room : defaultsKey ∉ t.displaced u

/-- One item goes by the name, it is the requested user's, and it has the value that `get` gives, as text. -/
def ShowsEnforced (t : Turnover) (w : World) (acc : Access) (u : Val) (items : List Dict)
    (key : String) : Prop :=
  ∃ it, items.filter (fun it => decide (it.get "name" = .str key)) = [it] ∧ it.get "uid" = u ∧
    ∃ v, (get g t w acc ReadThrough.empty key u).2 = .ok v ∧ (it.get "value").text = v.text

/-- What a name needs for that: a grant that is found is the user's, and in force and written plainly, or
out of date and written like the default; where none is found, the user has none in force, or one that is
the number of the default. -/
def Accurate (w : World) (acc : Access) (filter : Option Dict) (u : Val) (key : String) : Prop :=
  (∀ row, firstSeen g.svc.policies w.db acc filter key = some row → row "uid" = u ∧
    (InForce w.now row → Plain g (row "value")) ∧
    (¬ InForce w.now row → (row "value").text = (g.number ((g.limits (.str key)).getD .none)).text)) ∧
  (firstSeen g.svc.policies w.db acc filter key = none →
    (∀ row, inForce w.now w.db u key = some row →
      (g.number (row "value")).text = ((g.limits (.str key)).getD .none).text) ∧
    (inForce w.now w.db u key = none → Plain g ((g.limits (.str key)).getD .none)))

variable {g}

/-! ### The row query -/

/-- Sorting keeps the order of elements that are equal for it. -/
theorem find?_insertionSort {α : Type*} {r : α → α → Prop} [DecidableRel r] {q : α → Bool} {l : List α}
    (h : ∀ a b, q a = true → q b = true → r a b) : (l.insertionSort r).find? q = l.find? q := by
  have hsorted : (l.filter q).Pairwise r :=
    List.pairwise_of_forall_mem_list fun a ha b hb =>
      h a b (List.mem_filter.mp ha).2 (List.mem_filter.mp hb).2
  have hsub : (l.filter q).Sublist ((l.insertionSort r).filter q) := by
    have hfilter := (List.sublist_insertionSort hsorted List.filter_sublist).filter q
    simpa only [List.filter_filter, Bool.and_self] using hfilter
  have hlength := ((List.perm_insertionSort r l).filter q).length_eq
  rw [← List.head?_filter, ← List.head?_filter, hsub.eq_of_length hlength.symm]

theorem precedes_self (v : Val) : BasicCrud.precedes v v = true := by
  cases v <;> simp [BasicCrud.precedes]

variable {db : Database} {acc : Access} {pol : Policies} {filter : Option Dict} {limit : ℕ} {key : String}

/-- Among the rows of a result in order, the first by a name is the first of the table. -/
theorem find?_keep {conds : Option (List AccessControl.Condition)} {desc : Bool} {p : Row → Bool}
    (rows : List Row) :
    (AccessControl.keep db acc conds (BasicCrud.ordered "name" desc (rows.filter p))).find?
        (fun row => decide (row "name" = .str key)) =
      rows.find? fun row => decide (row "name" = .str key) && p row &&
        conds.elim true fun cs => decide (AccessControl.Passes db acc cs row) := by
  have hkeep : ∀ l : List Row, AccessControl.keep db acc conds l =
      l.filter fun row => conds.elim true fun cs => decide (AccessControl.Passes db acc cs row) := by
    intro l
    cases conds with
    | none => exact (List.filter_true l).symm
    | some cs => rfl
  rw [hkeep, List.find?_filter, BasicCrud.ordered, find?_insertionSort, List.find?_filter]
  · congr 1
    funext row
    simp only [Bool.decide_and, Bool.decide_eq_true, Bool.and_assoc, Bool.and_comm]
  · intro a b ha hb
    rw [decide_eq_true_iff, decide_eq_true_iff] at ha hb
    rw [ha.2, hb.2]
    simp [precedes_self]

variable {svc : Service} {rows : List Row} {p : BasicCrud.Page}

/-- What the row query selects, in order: the first record by a name. -/
theorem results_first (h : BasicCrud.results svc db acc .grant (request filter limit) = .ok rows) :
    rows.find? (fun row => decide (row "name" = .str key)) =
      firstSeen svc.policies db acc filter key := by
  obtain ⟨_, _, h⟩ := Checks.bind_eq_ok.mp h
  obtain ⟨_, _, h⟩ := Checks.bind_eq_ok.mp h
  obtain ⟨f, hfilter, h⟩ := Checks.bind_eq_ok.mp h
  rw [Checks.orElse_eq_ok] at h
  obtain ⟨selected, hselected, h⟩ := Checks.bind_eq_ok.mp h
  obtain ⟨conds, hconds, h⟩ := Checks.bind_eq_ok.mp h
  obtain ⟨_, _, h⟩ := Checks.bind_eq_ok.mp h
  rw [Checks.orElse_eq_ok] at hconds
  cases h
  obtain ⟨_, _, hselected⟩ := Checks.bind_eq_ok.mp hselected
  obtain ⟨_, _, hselected⟩ := Checks.bind_eq_ok.mp hselected
  obtain ⟨_, _, hselected⟩ := Checks.bind_eq_ok.mp hselected
  obtain ⟨_, _, hselected⟩ := Checks.bind_eq_ok.mp hselected
  cases hselected
  have hmeets : ∀ row, meets db filter row = decide (∀ c ∈ BasicCrud.clauses f, c.2.Holds (row c.1)) := by
    intro row
    have hparsed : BasicCrud.filterOf db { filter := filter.map some } = .ok f := hfilter
    rw [meets, hparsed]
  have hsees : ∀ row, sees svc.policies db acc row =
      conds.elim true fun cs => decide (AccessControl.Passes db acc cs row) := by
    intro row
    rw [sees, hconds]
    cases conds <;> rfl
  refine (find?_keep (db.rows .grant)).trans ?_
  unfold firstSeen
  congr 1
  funext row
  have hactive : (request filter limit).status ≠ some "disabled" := by simp [request]
  rw [hmeets, hsees, Bool.eq_iff_iff]
  simp only [Bool.and_eq_true, decide_eq_true_iff, if_neg hactive]
  tauto

/-- A listed record has its fields, but for the names of its owner and its category. -/
theorem item_agree {m : Model} {row : Row} {it : BasicCrud.Item}
    (h : BasicCrud.item pol db acc m row = .ok it) :
    AgreeOff ["owner", "category"] (BasicCrud.asDict db m row) it.fields := by
  have howner : ∀ v, AgreeOff ["owner"] (BasicCrud.asDict db m row)
      ((BasicCrud.asDict db m row).set "owner" v) := fun v => agreeOff_set _ "owner" v
  have hcategory : ∀ (fields : Dict) v, AgreeOff ["category"] fields (fields.set "category" v) :=
    fun fields v => agreeOff_set fields "category" v
  unfold BasicCrud.item at h
  simp only [bind, Except.bind, pure, Except.pure] at h
  repeat' split at h
  all_goals
    cases h
  -- with both names, with one of them, and with none
  · exact (howner _).trans (hcategory _ _)
  · exact (howner _).mono (by decide)
  · exact (hcategory _ _).mono (by decide)
  · exact AgreeOff.refl _ _

theorem item_fields {row : Row} {it : BasicCrud.Item} {c : String}
    (h : BasicCrud.item pol db acc .grant row = .ok it) (hc : c ∈ ["name", "uid", "value"]) :
    it.fields.get c = row c := by
  have hagree := item_agree h c
  simp only [List.mem_cons, List.not_mem_nil, or_false] at hc
  rcases hc with rfl | rfl | rfl
  all_goals
    rw [(hagree (by decide)).2]
    simp [BasicCrud.asDict, Model.columns, Model.restExclude, Model.restRelated, Model.restHybrid]

/-- The items of a page are those of rows. -/
theorem items_fields {rows : List Row} {its : List BasicCrud.Item} {c : String}
    (h : rows.mapM (BasicCrud.item pol db acc .grant) = .ok its) (hc : c ∈ ["name", "uid", "value"]) :
    ∀ it ∈ its, it.fields.get c = it.record c := by
  induction rows generalizing its with
  | nil =>
      cases h
      exact fun it hit => absurd hit List.not_mem_nil
  | cons row rows ih =>
      rw [List.mapM_cons] at h
      obtain ⟨it, hit, h⟩ := Checks.bind_eq_ok.mp h
      obtain ⟨its', hits, h⟩ := Checks.bind_eq_ok.mp h
      cases h
      refine List.forall_mem_cons.mpr ⟨?_, ih hits⟩
      rw [item_fields hit hc, BasicCrud.item_record hit]

/-- The only page without a query is the empty one, for a filter that asks for nothing. -/
theorem results_empty {args : BasicCrud.FindArgs}
    (h : BasicCrud.results svc db acc .grant args = .error (.ok p)) :
    p = .empty ∧ BasicCrud.filterOf db args = .error (.ok .empty) := by
  rcases Checks.bind_eq_error.mp h with h | ⟨_, -, h⟩
  · cases hallowed : BasicCrud.mayFind svc db acc .grant with
    | ok allowed =>
        rw [hallowed] at h
        cases h
    | error answer =>
        rw [hallowed] at h
        cases h
  rcases Checks.bind_eq_error.mp h with h | ⟨_, -, h⟩
  · cases (Checks.ensure_eq_error.mp h).2
  rcases Checks.bind_eq_error.mp h with h | ⟨f, -, h⟩
  · suffices hpage : p = .empty by rw [h, hpage]; exact ⟨rfl, rfl⟩
    unfold BasicCrud.filterOf at h
    split at h
    · cases h
    · cases h
    · split_ifs at h
      · cases h
        rfl
      · cases h
        rfl
      -- what goes into the query, and an account that is not there
      all_goals
        simp only at h
        split at h
        · cases h
        · cases h
  · cases hqueried : BasicCrud.queried svc db acc .grant args f with
    | ok rows =>
        rw [hqueried] at h
        cases h
    | error answer =>
        rw [hqueried] at h
        cases h

/-- A full page holds the first record by a name that the session sees, if there is one. -/
theorem page_first (h : BasicCrud.find svc db acc .grant (request filter limit) = .ok p)
    (hfull : p.cursorNext = none) :
    (p.items.map BasicCrud.Item.record).find? (fun row => decide (row "name" = .str key)) =
        firstSeen svc.policies db acc filter key ∧
      ∀ c ∈ ["name", "uid", "value"], ∀ it ∈ p.items, it.fields.get c = it.record c := by
  have hfind := BasicCrud.find_eq svc db acc .grant (request filter limit) 0 limit
  have hrequest : { request filter limit with offset := 0, limit := limit } = request filter limit := rfl
  rw [hrequest, h] at hfind
  cases hresults : BasicCrud.results svc db acc .grant (request filter limit) with
  | ok rows =>
      rw [hresults] at hfind
      have hpage : BasicCrud.page svc.policies db acc .grant
        { request filter limit with offset := 0, limit := limit } rows = .ok p := hfind.symm
      obtain ⟨hrecords, -, hnext⟩ := BasicCrud.page_ok hpage
      rw [hfull] at hnext
      have hall : rows.length ≤ limit := by
        by_contra hmore
        rw [if_pos (by omega)] at hnext
        cases hnext
      rw [List.drop_zero, List.take_of_length_le hall] at hrecords
      refine ⟨by rw [hrecords, results_first hresults], fun c hc => ?_⟩
      obtain ⟨its, hits, hp⟩ := Checks.bind_eq_ok.mp hpage
      cases hp
      exact items_fields hits hc
  | error answer =>
      rw [hresults] at hfind
      obtain rfl : .ok p = answer := hfind
      obtain ⟨rfl, hnone⟩ := results_empty hresults
      refine ⟨?_, fun c _ it hit => absurd hit List.not_mem_nil⟩
      have hmeets : ∀ row, meets db filter row = false := by
        intro row
        have hparsed : BasicCrud.filterOf db { filter := filter.map some } =
          .error (.ok BasicCrud.Page.empty) := hnone
        rw [meets, hparsed]
      symm
      refine List.find?_eq_none.mpr fun row _ => ?_
      simp [hmeets]

/-! ### One name -/

variable {t : Turnover} {w : World} {u : Val} {row : Row}

/-- A grant is the one in force by its name, or there is none. -/
theorem inForce_own (hrow : row ∈ w.db.rows .grant) (hname : row "name" = .str key) :
    inForce w.now w.db (row "uid") key = if InForce w.now row then some row else none := by
  cases hfound : inForce w.now w.db (row "uid") key with
  | none =>
      have hnone := List.find?_eq_none.mp hfound row hrow
      rw [if_neg fun hin => hnone (decide_eq_true ⟨rfl, hname, hin⟩)]
  | some rec =>
      have hcond : rec "uid" = row "uid" ∧ rec "name" = .str key ∧ InForce w.now rec := by
        simpa using List.find?_some hfound
      have hsame : rec = row := grant_unique (List.mem_of_find?_eq_some hfound) hrow
        (hcond.2.1.trans hname.symm) hcond.1
      rw [← hsame, if_pos hcond.2.2]

theorem empty_coherent (f : Val → Limits) : (ReadThrough.empty : Cache).Coherent f :=
  ReadThrough.Coherent.empty f

/-- With nothing cached, `get` reads the grant in force or the default. -/
theorem get_empty (hid : u.truthy = true ∧ u ≠ defaultsKey) (hroom : defaultsKey ∉ t.displaced u) :
    (get g t w acc ReadThrough.empty key u).2 = .ok (g.number (current g w.now w.db u key)) := by
  have huser : userOf acc u = u := if_pos hid.1
  have hreads : ReadsDefaults g t w acc ReadThrough.empty key u := by
    unfold ReadsDefaults
    rw [huser]
    exact ⟨Or.inr (Or.inl hroom), fun h => absurd h hid.2⟩
  rw [get_value (empty_coherent _) hreads, huser]

/-- The default of a name is shown where no record goes by it. -/
theorem entry_none {items : List BasicCrud.Item} (u : Val) (rbac : String) (defaults : Limits)
    (h : items.find? (fun it => decide (it.fields.get "name" = .str key)) = none) :
    (entry items u rbac defaults key).get "name" = .str key ∧
      (entry items u rbac defaults key).get "uid" = u ∧
      ((entry items u rbac defaults key).get "value").text = ((defaults (.str key)).getD .none).text := by
  unfold entry
  rw [h]
  simp

/-- The first record that goes by the name is shown. -/
theorem entry_some {items : List BasicCrud.Item} {it : BasicCrud.Item} (u : Val) (rbac : String)
    (defaults : Limits) (h : items.find? (fun it => decide (it.fields.get "name" = .str key)) = some it) :
    (entry items u rbac defaults key).get "name" = .str key ∧
      (entry items u rbac defaults key).get "uid" = it.fields.get "uid" ∧
      (entry items u rbac defaults key).get "value" = it.fields.get "value" := by
  have hname : it.fields.get "name" = .str key := by simpa using List.find?_some h
  unfold entry
  rw [h]
  simp [hname]

/-- What is shown under a name is what is enforced exactly if the name is accurate. -/
theorem entry_enforced (rbac : String) (h : BasicCrud.find g.svc w.db acc .grant (request filter limit) = .ok p)
    (hfull : p.cursorNext = none) :
    ((entry p.items u rbac g.limits key).get "uid" = u ∧
      ((entry p.items u rbac g.limits key).get "value").text =
        (g.number (current g w.now w.db u key)).text) ↔ Accurate g w acc filter u key := by
  obtain ⟨hfirst, hfields⟩ := page_first h hfull
  have hfound : (p.items.find? fun it => decide (it.fields.get "name" = .str key)).map
      BasicCrud.Item.record = firstSeen g.svc.policies w.db acc filter key := by
    rw [← hfirst, List.find?_map]
    congr 1
    refine List.find?_congr fun it hit => ?_
    rw [hfields "name" (by simp) it hit]
    rfl
  unfold Accurate
  cases hitem : p.items.find? fun it => decide (it.fields.get "name" = .str key) with
  | none =>
      obtain ⟨-, huid, hvalue⟩ := entry_none u rbac g.limits hitem
      rw [hitem, Option.map_none] at hfound
      rw [← hfound, huid, hvalue]
      unfold current Plain
      cases hforce : inForce w.now w.db u key with
      | none => simp [eq_comm]
      | some rec => simp [eq_comm]
  | some it =>
      obtain ⟨-, huid, hvalue⟩ := entry_some u rbac g.limits hitem
      have hit : it ∈ p.items := List.mem_of_find?_eq_some hitem
      rw [hitem, Option.map_some] at hfound
      have hrow : it.record ∈ w.db.rows .grant := List.mem_of_find?_eq_some hfound.symm
      have hname : it.record "name" = .str key := by
        have hseen := List.find?_some hfound.symm
        simp only [Bool.and_eq_true, decide_eq_true_iff] at hseen
        exact hseen.1.1.1
      rw [← hfound, huid, hvalue, hfields "uid" (by simp) it hit, hfields "value" (by simp) it hit]
      have hcurrent : it.record "uid" = u → current g w.now w.db u key =
          if InForce w.now it.record then it.record "value" else (g.limits (.str key)).getD .none := by
        rintro rfl
        rw [current, inForce_own hrow hname]
        split_ifs <;> rfl
      by_cases hown : it.record "uid" = u
      · rw [hcurrent hown]
        by_cases hin : InForce w.now it.record
        · simp [hown, hin, Plain, eq_comm]
        · simp [hown, hin]
      · simp [hown]

/-! ### The whole list -/

/-- The names that a request selects. -/
def selectedKeys (g : Setting) (name : Val) (filter : Option Dict) : List String :=
  g.keys.filter fun key => decide (Selected (chosen name (filter.getD ∅)) key)

/-- The names are listed in turn, each by its entry. -/
theorem find_items (h : Lists g t w acc filter limit u) (name : Val) :
    ∃ p rbac, BasicCrud.find g.svc w.db acc .grant (request filter limit) = .ok p ∧ p.cursorNext = none ∧
      (GrantController.find g t w acc ReadThrough.empty (request filter limit) name).2 =
        .ok ⟨(selectedKeys g name filter).map (entry p.items u rbac g.limits),
          (selectedKeys g name filter).length, 200⟩ := by
  obtain ⟨p, hp, hfull⟩ := h.page
  obtain ⟨actions, hactions⟩ := h.rbac
  have hparsed : parsed (request filter limit) = .ok (filter.getD ∅) := by
    cases filter with
    | none => rfl
    | some filter => rfl
  have hdefaults : construct g t ReadThrough.empty defaultsKey = some g.limits :=
    construct_defaults (empty_coherent (source g w.now w.db))
  refine ⟨p, actionsText actions, hp, hfull, ?_⟩
  unfold GrantController.find find
  simp only [hp, hparsed, h.user, hactions, hdefaults, Checks.orElse, bind, Except.bind]
  rfl

/-- In a list with an entry for each name, one item goes by a name. -/
theorem filter_entries {keys : List String} (hkeys : keys.Nodup) {f : String → Dict}
    (hf : ∀ k, (f k).get "name" = .str k) (hkey : key ∈ keys) :
    (keys.map f).filter (fun it => decide (it.get "name" = .str key)) = [f key] := by
  rw [List.filter_map]
  have hone : keys.filter ((fun it => decide (it.get "name" = .str key)) ∘ f) = [key] := by
    have hsame : ((fun it : Dict => decide (it.get "name" = .str key)) ∘ f) = fun k => decide (k = key) := by
      funext k
      simp [hf]
    rw [hsame, List.filter_eq, List.count_eq_one_of_mem hkeys hkey, List.replicate_one]
  rw [hone, List.map_singleton]

/-! ### The sessions of users and administrators -/

open AccessControl

/-- The entries for grants in the shipped table. -/
def grantRules : List Policy :=
  [⟨"admin", "grant:.*", ['c', 'd', 'r', 'u']⟩, ⟨"user/{uid}", "grant:{uid}", ['r']⟩]

theorem rulesOf_grant : rulesOf examplePolicies .grant = .ok grantRules := rfl

theorem grantRules_entry : ∀ p ∈ grantRules, Entry Model.grant.resource p := by
  intro p hp
  simp only [grantRules, List.mem_cons, List.not_mem_nil, or_false] at hp
  rcases hp with rfl | rfl
  · exact .role (by decide +kernel) (by decide) (by decide)
  · exact Entry.own (w := "user") (Or.inr rfl) (by decide)

/-- A session with the role of an administrator or of a user. -/
structure OfRole (acc : Access) : Prop where
  ordinary : acc.Ordinary
  role : acc.HasRole "admin" ∨ acc.HasRole "user"

/-- The administrator sees every grant, a user the own ones. -/
theorem withFilter_grant (h : OfRole acc) : withFilter examplePolicies acc .grant 'r' =
    .ok (if acc.HasRole "admin" then none else some [.ownUid]) := by
  cases hauth : acc.auth with
  | none => exact absurd hauth h.ordinary.auth
  | some roles =>
      have hmem : ∀ role, acc.HasRole role ↔ role ∈ roles := by
        intro role
        simp [Access.HasRole, hauth]
      cases roles with
      | nil =>
          have hrole := h.role
          simp [hmem] at hrole
      | cons role roles =>
          have hrole := h.role
          have hhead : (Text.split "user/{uid}" '/').head?.getD "" = "user" := by decide +kernel
          simp only [hmem] at hrole ⊢
          rw [withFilter, rulesOf_grant]
          by_cases hadmin : "admin" ∈ role :: roles
          · rw [if_pos hadmin]
            simp [bind, Except.bind, extendAll, extend, grantRules, hauth, hadmin, Model.resource, pure,
              Except.pure]
          · have huser : "user" = role ∨ "user" ∈ roles := List.mem_cons.mp (hrole.resolve_left hadmin)
            have hhas : Model.grant.Has "uid" := by decide
            have hprivacy : ¬ Model.grant.Has "privacy" := by decide
            rw [if_neg hadmin]
            simp [bind, Except.bind, extendAll, extend, grantRules, hauth, hadmin, huser, hhead, hhas, hprivacy,
              Model.resource]

/-- The actions on a grant are evaluated, and a grant of the session's user may be read. -/
theorem rbac_grant (h : OfRole acc) (db : Database) (target : Target) (hquery : target.query = none)
    (howner : Word target.ownerUid.text) (hid : Word target.id.text) :
    ∃ actions, rbacPermissions examplePolicies db acc .grant target = .ok actions ∧
      (target.ownerUid = Val.ofOption acc.uid → 'r' ∈ actions) := by
  obtain ⟨u, hu, -, hword⟩ := h.ordinary.uid
  have hresolve : ∃ r, resolve examplePolicies db acc .grant target = .ok r ∧
      r.ownerUid = target.ownerUid ∧ r.id = target.id ∧ r.denyDelete = false := by
    unfold resolve fromRecord
    simp only [hquery]
    exact ⟨_, rfl, rfl, rfl, rfl⟩
  obtain ⟨r, hr, hro, hri, hdeny⟩ := hresolve
  obtain ⟨st, hst, -, hreads, -⟩ := foldlM_reads (m := .grant) (r := r) h.ordinary hu hword (hro ▸ howner) (hri ▸ hid)
    grantRules_entry ([], if PrivacyOpen acc r then ['r'] else []) (Or.inl rfl)
  refine ⟨_, rbacPermissions_eq hr rulesOf_grant hst, fun hown => ?_⟩
  have hgranted : granted r st.1 = st.1 := by
    unfold granted
    rw [hdeny]
    rfl
  have happlied : ∃ p ∈ grantRules, Applied acc .grant r p := by
    have htext : r.ownerUid.text = u := by
      rw [hro, hown, hu]
      rfl
    have hroles : ∀ role, acc.HasRole role → Word role := fun role hrole => (h.ordinary.roles role hrole).1
    rcases h.role with hadmin | huser
    · refine ⟨_, List.mem_cons_self, by decide, ?_⟩
      exact applies_of_carries hu hword htext (hri ▸ hid) (grantRules_entry _ List.mem_cons_self) hroles
        ⟨"admin", hadmin, Or.inl ⟨rfl, by decide, by decide, Or.inl rfl⟩⟩
    · refine ⟨_, List.mem_cons_of_mem _ List.mem_cons_self, by decide, ?_⟩
      exact applies_of_carries hu hword htext (hri ▸ hid)
        (grantRules_entry _ (List.mem_cons_of_mem _ List.mem_cons_self)) hroles
        ⟨"user", huser, Or.inr ⟨rfl, Or.inr rfl, rfl⟩⟩
  have hmem : 'r' ∈ st.1 := hreads (Or.inr happlied)
  rw [hgranted, if_neg (List.ne_nil_of_mem hmem)]
  exact hmem

theorem mayFind_grant (h : OfRole acc) (hpol : svc.policies = examplePolicies) :
    BasicCrud.mayFind svc db acc .grant = .ok true := by
  obtain ⟨u, hu, -, hword⟩ := h.ordinary.uid
  have howner : Word (Val.ofOption acc.uid).text := by
    rw [hu]
    exact hword
  obtain ⟨actions, hactions, hreads⟩ := rbac_grant h db { ownerUid := Val.ofOption acc.uid } rfl howner
    (by decide : Word "None")
  rw [BasicCrud.mayFind, if_neg (by decide), withPermission, hpol, hactions]
  exact congrArg Except.ok (decide_eq_true (hreads rfl))

/-- A filter by the owner, the account or the name, whose account is there. -/
structure Filters (db : Database) (filter : Dict) : Prop where
  keys : ∀ k ∈ filter, k ∈ ["uid", "name", "account_id"]
  account : "account_id" ∈ filter → (filter.get "account_id").truthy = true ∧
    ∃ row ∈ db.rows .account, row "id" = filter.get "account_id"

/-- Such a filter asks for nothing, or goes into the query with columns of grants. -/
theorem filterOf_grant {f : Dict} (h : Filters db f) (args : BasicCrud.FindArgs)
    (hargs : args.filter = some (some f)) :
    BasicCrud.filterOf db args = .error (.ok .empty) ∨
      ∃ f', BasicCrud.filterOf db args = .ok f' ∧ ∀ k ∈ f', k ∈ ["uid", "name"] := by
  have hid : "id" ∉ f := fun hmem => absurd (h.keys _ hmem) (by decide)
  have hfalsy : (f.get "id").truthy = false := by
    rw [Dict.get_of_not_mem hid]
    rfl
  unfold BasicCrud.filterOf
  rw [hargs]
  by_cases hempty : AList.keys f = []
  · left
    simp [hid, hempty]
  · right
    simp only [hid, false_and, if_false, not_false_eq_true, hempty, and_false, hfalsy, Bool.false_eq_true]
    unfold BasicCrud.resolveAccount
    have haccount : (f.pop "id").get "account_id" = f.get "account_id" := by simp
    by_cases htruthy : (f.get "account_id").truthy = true
    · have hmem : "account_id" ∈ f := by
        refine Dict.mem_of_get fun hnone => ?_
        rw [hnone] at htruthy
        cases htruthy
      obtain ⟨row, hrow, hrowid⟩ := (h.account hmem).2
      have hone : one ((db.rows .account).filter fun row =>
          decide (row "id" = f.get "account_id")) = .ok row := by
        refine one_eq_ok.mpr (db.filter_column (by decide : ["id"] ∈ schema.unique .account) (by decide)
          (fun r _ hr => ?_) hrow (decide_eq_true hrowid))
        exact (of_decide_eq_true hr).trans hrowid.symm
      rw [haccount, if_pos htruthy]
      simp only [hone]
      refine ⟨_, rfl, fun k hk => ?_⟩
      simp only [mem_pop, mem_set] at hk
      rcases hk.2 with rfl | ⟨-, hk'⟩
      · simp
      · have hkeys := h.keys k hk'
        simp only [List.mem_cons, List.not_mem_nil, or_false] at hkeys ⊢
        tauto
    · rw [haccount, if_neg htruthy]
      refine ⟨_, rfl, fun k hk => ?_⟩
      simp only [mem_pop] at hk
      have hkeys := h.keys k hk.2
      simp only [List.mem_cons, List.not_mem_nil, or_false] at hkeys ⊢
      rcases hkeys with huid | hname | rfl
      · exact Or.inl huid
      · exact Or.inr hname
      · exact absurd (h.account hk.2).1 htruthy

/-- The query is made. -/
theorem results_grant (h : OfRole acc) (hpol : svc.policies = examplePolicies) {f : Dict}
    (hfilter : BasicCrud.filterOf db (request filter limit) = .ok f)
    (hcolumns : ∀ k ∈ f, k ∈ ["uid", "name"]) :
    ∃ rows, BasicCrud.results svc db acc .grant (request filter limit) = .ok rows := by
  have hhas : ∀ c ∈ BasicCrud.clauses f, Model.grant.Has c.1 := by
    intro c hc
    obtain ⟨e, he, hclause⟩ := List.mem_filterMap.mp hc
    obtain ⟨v, -, rfl⟩ := Option.map_eq_some_iff.mp hclause
    have hkey : e.1 ∈ f := AList.mem_keys.mpr (List.mem_map_of_mem he)
    have hcolumn := hcolumns e.1 hkey
    simp only [List.mem_cons, List.not_mem_nil, or_false] at hcolumn
    show Model.grant.Has e.1
    rcases hcolumn with huid | hname
    · rw [huid]
      decide
    · rw [hname]
      decide
  have hconds : ∃ conds, withFilter svc.policies acc .grant 'r' = .ok conds ∧
      ((conds.getD []).filter (· = Condition.referred)).length ≤ 1 := by
    rw [hpol, withFilter_grant h]
    refine ⟨_, rfl, ?_⟩
    split <;> decide
  obtain ⟨conds, hwith, hreferred⟩ := hconds
  have hname : Model.grant.Has "name" := by decide
  have hstatus : Model.grant.Has "status" := by decide
  have hknown : ∀ c ∈ BasicCrud.clauses f, c.2.isEquals = true ∨ Model.grant.Has c.1 :=
    fun c hc => Or.inr (hhas c hc)
  have hsort : (request filter limit).sort = none := rfl
  unfold BasicCrud.results BasicCrud.queried BasicCrud.select
  simp only [mayFind_grant h hpol, hfilter, hwith, hsort, Option.getD_none, if_pos hname, Checks.orElse,
    Checks.ensure, if_pos hknown, if_pos hhas, if_pos hstatus, if_pos hreferred, if_true, bind, Except.bind, pure, Except.pure]
  exact ⟨_, rfl⟩

/-- A session of an administrator or a user lists what it asks for, the ids of the records being generated
ones. -/
theorem find_of_role (h : OfRole acc) (hpol : svc.policies = examplePolicies)
    (hwords : ∀ row ∈ db.rows .grant, Word (row "id").text ∧ Word (row "uid").text)
    (hfilter : ∀ f, filter = some f → Filters db f) (hlimit : (db.rows .grant).length ≤ limit) :
    ∃ p, BasicCrud.find svc db acc .grant (request filter limit) = .ok p ∧ p.cursorNext = none := by
  have hfind := BasicCrud.find_eq svc db acc .grant (request filter limit) 0 limit
  have hrequest : { request filter limit with offset := 0, limit := limit } = request filter limit := rfl
  rw [hrequest] at hfind
  have hresults : BasicCrud.results svc db acc .grant (request filter limit) = .error (.ok .empty) ∨
      ∃ rows, BasicCrud.results svc db acc .grant (request filter limit) = .ok rows := by
    cases filter with
    | none => exact Or.inr (results_grant h hpol (f := ∅) rfl fun k hk => absurd hk (AList.notMem_empty k))
    | some f =>
        rcases filterOf_grant (hfilter f rfl) (request (some f) limit) rfl with
          hempty | ⟨f', hf', hcolumns⟩
        · left
          unfold BasicCrud.results
          simp only [mayFind_grant h hpol, hempty, Checks.orElse, Checks.ensure, bind, Except.bind]
          rfl
        · exact Or.inr (results_grant h hpol hf' hcolumns)
  rcases hresults with hempty | ⟨rows, hrows⟩
  · rw [hempty] at hfind
    exact ⟨.empty, hfind, rfl⟩
  · obtain ⟨hnodup, hstored⟩ := BasicCrud.results_spec hrows
    have hitems : ∀ row ∈ rows, ∃ it, BasicCrud.item svc.policies db acc .grant row = .ok it := by
      intro row hrow
      refine BasicCrud.item_ok (hstored row hrow) ?_
      have huid : (BasicCrud.itemTarget svc.policies db .grant row).ownerUid = row "uid" := by
        simp [BasicCrud.itemTarget, BasicCrud.asDict, Model.columns, Model.restExclude, Model.restRelated,
          Model.restHybrid]
      have hid : (BasicCrud.itemTarget svc.policies db .grant row).id = row "id" := by
        simp [BasicCrud.itemTarget, BasicCrud.asDict, Model.columns, Model.restExclude, Model.restRelated,
          Model.restHybrid]
      have hwordsRow := hwords row (hstored row hrow)
      obtain ⟨actions, hactions, -⟩ := rbac_grant h db
        (BasicCrud.itemTarget svc.policies db .grant row) rfl (by rw [huid]; exact hwordsRow.2)
        (by rw [hid]; exact hwordsRow.1)
      rw [← hpol] at hactions
      exact ⟨actions, hactions⟩
    obtain ⟨p, hp⟩ : ∃ p, BasicCrud.page svc.policies db acc .grant
        { request filter limit with offset := 0, limit := limit } rows = .ok p :=
      BasicCrud.page_answers hitems 0 limit
    rw [hrows] at hfind
    refine ⟨p, hfind.trans hp, ?_⟩
    obtain ⟨-, -, hnext⟩ := BasicCrud.page_ok hp
    have hlength : rows.length ≤ (db.rows .grant).length := (hnodup.subperm hstored).length_le
    rw [hnext, if_neg (by omega)]

/-- Such a session lists the grants of a user. -/
theorem lists_of_role (h : OfRole acc) (hpol : g.svc.policies = examplePolicies)
    (hwords : ∀ row ∈ w.db.rows .grant, Word (row "id").text ∧ Word (row "uid").text)
    (hfilter : ∀ f, filter = some f → Filters w.db f) (hlimit : (w.db.rows .grant).length ≤ limit)
    (huser : requested w.db acc (filter.getD ∅) = .ok u) (hword : Word u.text)
    (hid : u.truthy = true ∧ u ≠ defaultsKey) (hroom : defaultsKey ∉ t.displaced u) :
    Lists g t w acc filter limit u := by
  refine ⟨find_of_role h hpol hwords hfilter hlimit, huser, ?_, hid, hroom⟩
  obtain ⟨actions, hactions, -⟩ := rbac_grant h w.db { ownerUid := u } rfl hword (by decide : Word "None")
  rw [← hpol] at hactions
  exact ⟨actions, hactions⟩

/-! ### The list and the limits -/

/-- The item of a name shows what is enforced exactly if the name is accurate. -/
theorem showsEnforced_iff (h : Lists g t w acc filter limit u) {name : Val}
    (hp : BasicCrud.find g.svc w.db acc .grant (request filter limit) = .ok p) (hfull : p.cursorNext = none)
    (rbac : String) (hkey : key ∈ selectedKeys g name filter) :
    ShowsEnforced g t w acc u ((selectedKeys g name filter).map (entry p.items u rbac g.limits)) key ↔
      Accurate g w acc filter u key := by
  have hkeys : (selectedKeys g name filter).Nodup := (List.nodup_dedup _).filter _
  have hname : ∀ k, (entry p.items u rbac g.limits k).get "name" = .str k := by
    intro k
    cases hitem : p.items.find? fun it => decide (it.fields.get "name" = .str k) with
    | none => exact (entry_none u rbac g.limits hitem).1
    | some it => exact (entry_some u rbac g.limits hitem).1
  rw [← entry_enforced rbac hp hfull, ShowsEnforced, filter_entries hkeys hname hkey,
    get_empty h.id h.room]
  constructor
  · rintro ⟨it, hit, huid, v, hv, hvalue⟩
    obtain rfl := (List.singleton_inj.mp hit).symm
    cases hv
    exact ⟨huid, hvalue⟩
  · rintro ⟨huid, hvalue⟩
    exact ⟨_, rfl, huid, _, rfl, hvalue⟩

/-- The seeded installation, where the other user may have five lists. -/
def fiveLists : Database :=
  ⟨Seed.tables (Seed.records ++ Seed.member ++ [(.grant, Seed.row .grant [("id", .str "x-g1"),
    ("name", .str "lists"), ("value", .str "5"), ("uid", .str "u-0002"), ("status", .str "active")])]),
    by decide +kernel⟩

/-- A session of the administrator. -/
def administrator : Access := { auth := some ["admin", "user"], uid := some "x-23450001" }

/-- A cache with room. -/
def roomy : Turnover := ⟨[], fun _ => []⟩

theorem administrator_ofRole : OfRole administrator where
  ordinary := by
    refine ⟨by decide, ⟨"x-23450001", rfl, by decide, by decide⟩, fun role hrole => ?_⟩
    obtain ⟨roles, hroles, hrole⟩ := hrole
    cases hroles
    simp only [List.mem_cons, List.not_mem_nil, or_false] at hrole
    rcases hrole with rfl | rfl
    · exact ⟨by decide, by decide⟩
    · exact ⟨by decide, by decide⟩
  role := Or.inl ⟨_, rfl, List.mem_cons_self⟩

theorem fiveLists_words : ∀ row ∈ (Seed.world fiveLists).db.rows .grant,
    Word (row "id").text ∧ Word (row "uid").text := by decide +kernel

end Grants

end Apicrud
