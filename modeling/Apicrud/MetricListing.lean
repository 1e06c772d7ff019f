import Apicrud.AccessControl
import Apicrud.Metrics

/-! # Listing the metrics

`Metrics.find` scans the keys `mtr:<name>:<labels>` of redis for a pattern, and gives the metrics of one
page.  The scan and redis's patterns are parameters; the metrics of the process itself, which an
administrator's request writes first, are among the keys.

The loop skips to the offset and counts toward the limit at once, so a skipped metric uses up the page:
`scanItems_eq`.  From an offset of one limit on there is nothing on a page, and the pages give all metrics
just when the first one does: `pages_complete_iff`. -/

namespace Apicrud

open Relational

/-- What a key of a metric holds; a number with a fraction is kept as its text. -/
inductive MetricValue where
  | int (n : ℤ)
  | float (text : String)
deriving DecidableEq

/-- The bytes of the value, decoded. -/
def MetricValue.text : MetricValue → String
  | int n => toString n
  | float text => text

/-- A metric that is stored: its name, the labels in their order, and the value. -/
structure Sample where
  name : String
  labels : List String
  value : MetricValue
deriving DecidableEq

/-- The key that `store` writes. -/
def Sample.key (s : Sample) : String := Metrics.key s.name s.labels

/-- The keys of metrics in redis, in the order of `scan_iter`. -/
structure MetricStore where
  samples : List Sample
  nodup : (samples.map Sample.key).Nodup
  /-- a pattern and a key, as redis compares them -/
  matching : String → String → Bool

/-- `self.connection.scan_iter(match=pattern)` -/
def MetricStore.scanIter (store : MetricStore) (pattern : String) : List Sample :=
  store.samples.filter fun s => store.matching pattern s.key

/-- The arguments of `find` and `collect`. -/
structure MetricArgs where
  /-- the parsed `filter`; `some none` where it is no JSON -/
  filter : Option (Option Dict) := none
  name : Option String := none
  label : Option String := none
  uid : Option String := none
  limit : ℕ := 100
  offset : ℕ := 0

/-- An item of the answer. -/
structure MetricItem where
  name : String
  labels : List String
  value : MetricValue
deriving DecidableEq

/-- The answer of `find`. -/
structure MetricPage where
  items : List MetricItem
  count : ℕ
deriving DecidableEq

namespace Metrics

/-! ### What is scanned for -/

/-- `filter.get('name') or kwargs.get('name', '*')` -/
def nameOf (args : MetricArgs) (filter : Dict) : String :=
  if (filter.get "name").truthy then (filter.get "name").text else args.name.getD "*"

/-- The label of a request without a uid. -/
def labelOf (args : MetricArgs) (filter : Dict) : String :=
  let label :=
    if (filter.get "label").truthy then (filter.get "label").text else args.label.getD "*"
  if label ≠ "*" then "*" ++ label ++ "*" else label

/-- The label that a session may look for. -/
def findLabel (acc : Access) (args : MetricArgs) (filter : Dict) : Except Response String :=
  match acc.auth with
  | none => .error .raised
  | some auth =>
      if "admin" ∈ auth then
        if "uid" ∈ filter ∨ args.uid.isSome = true then
          let uid :=
            if (filter.get "uid").truthy then (filter.get "uid").text else args.uid.getD ""
          .ok (if uid ≠ "" then "uid=" ++ uid else "uid=*")
        else .ok (labelOf args filter)
      else if "user" ∈ auth then
        if (filter.get "uid").truthy = false ∨ filter.get "uid" ≠ Val.ofOption acc.uid then
          .error (.message "access denied" 403)
        else .ok ("uid=" ++ (filter.get "uid").text)
      else .error (.message "access denied" 403)

/-- `'mtr:%s:%s' % (name, label)` -/
def pattern (name label : String) : String := "mtr:" ++ name ++ ":" ++ label

/-- The parsed filter. -/
def filterOf (args : MetricArgs) : Except Response Dict :=
  match args.filter with
  | none => .ok ∅
  | some none => .error (.message "invalid filter specified" 405)
  | some (some filter) => .ok filter

/-- The metrics that a request asks for, on whatever page. -/
def requested (store : MetricStore) (acc : Access) (args : MetricArgs) :
    Except Response (List Sample) := do
  let filter ← filterOf args
  let label ← findLabel acc args filter
  pure (store.scanIter (pattern (nameOf args filter) label))

/-! ### The loop -/

/-- `int(value)`, or `float(value)` where that raises. -/
def readValue (text : String) : MetricValue :=
  match Text.int text with
  | some n => .int n
  | none => .float text

/-- What is read back from a key and its value. -/
def itemOf (s : Sample) : MetricItem where
  name := (Text.split s.key ':').getD 1 ""
  labels := Text.split ((Text.split s.key ':').getD 2 "") ','
  value := readValue s.value.text

/-- The loop over the keys, with what is left of the offset, the count and the items so far. -/
def scanItems (limit : ℕ) : List Sample → ℕ → ℕ → List MetricItem → MetricPage
  | [], _, count, retval => ⟨retval, count⟩
  | s :: rest, offset, count, retval =>
      let retval := if offset ≠ 0 then retval else retval ++ [itemOf s]
      if limit ≤ count + 1 then ⟨retval, count + 1⟩
      else scanItems limit rest (offset - 1) (count + 1) retval

/-- `find` -/
def find (store : MetricStore) (acc : Access) (args : MetricArgs) : Except Response MetricPage :=
  (requested store acc args).map fun keys => scanItems args.limit keys args.offset 0 []

/-- A key has the parts that the loop reads. -/
theorem length_split_key (s : Sample) : 2 < (Text.split s.key ':').length := by
  rw [Text.length_split, Sample.key, key]
  simp only [String.toList_append, List.count_append]
  have hprefix : ("mtr:".toList).count ':' = 1 := by decide
  have hcolon : (":".toList).count ':' = 1 := by decide
  omega

/-- The metrics that are passed over for the offset count toward the limit. -/
theorem scanItems_eq (limit : ℕ) (keys : List Sample) (offset count : ℕ) (retval : List MetricItem) :
    (scanItems limit keys offset count retval).items =
      retval ++ ((keys.take (max (limit - count) 1)).drop offset).map itemOf := by
  induction keys generalizing offset count retval with
  | nil => simp [scanItems]
  | cons s rest ih =>
      have hfirst : (if offset ≠ 0 then retval else retval ++ [itemOf s]) =
          retval ++ (([s] : List Sample).drop offset).map itemOf := by
        cases offset <;> simp
      by_cases hlast : limit ≤ count + 1
      · have hmax : max (limit - count) 1 = 1 := by omega
        rw [scanItems, if_pos hlast, hfirst, hmax]
        rfl
      · have hmax : max (limit - count) 1 = max (limit - (count + 1)) 1 + 1 := by omega
        rw [scanItems, if_neg hlast, ih, hfirst, hmax, List.take_succ_cons, List.append_assoc]
        cases offset <;> simp

/-- The items of a page. -/
theorem find_items {store : MetricStore} {acc : Access} {args : MetricArgs} {keys : List Sample}
    (h : requested store acc args = .ok keys) (hlimit : 1 ≤ args.limit) : ∃ count,
      find store acc args = .ok ⟨((keys.take args.limit).drop args.offset).map itemOf, count⟩ := by
  have hitems := scanItems_eq args.limit keys args.offset 0 []
  rw [Nat.sub_zero, max_eq_left hlimit, List.nil_append] at hitems
  refine ⟨(scanItems args.limit keys args.offset 0 []).count, ?_⟩
  rw [find, h, ← hitems]
  rfl

/-! ### Paging -/

/-- The pages at the offsets 0, n, 2n and so on hold at most `n` metrics each, no metric twice, and all of
those that are asked for. -/
def PagesComplete (store : MetricStore) (acc : Access) (args : MetricArgs) (keys : List Sample) (n : ℕ) :
    Prop :=
  ∃ pages : ℕ → List Sample,
    (∀ i, ∃ count, find store acc { args with limit := n, offset := i * n } =
      .ok ⟨(pages i).map itemOf, count⟩) ∧
    (∀ i, (pages i).length ≤ n ∧ (pages i).Nodup) ∧
    (∀ i j, i ≠ j → (pages i).Disjoint (pages j)) ∧
    ∀ s, s ∈ keys ↔ ∃ i, s ∈ pages i

/-- No metric is asked for twice. -/
theorem requested_nodup {store : MetricStore} {acc : Access} {args : MetricArgs} {keys : List Sample}
    (h : requested store acc args = .ok keys) : keys.Nodup := by
  unfold requested at h
  obtain ⟨filter, -, h⟩ := Checks.bind_eq_ok.mp h
  obtain ⟨label, -, h⟩ := Checks.bind_eq_ok.mp h
  cases h
  exact store.nodup.of_map.filter _

/-- The page at an offset of so many limits. -/
theorem find_page {store : MetricStore} {acc : Access} {args : MetricArgs} {keys : List Sample}
    (h : requested store acc args = .ok keys) {n : ℕ} (hn : 1 ≤ n) (i : ℕ) : ∃ count,
      find store acc { args with limit := n, offset := i * n } =
        .ok ⟨((keys.take n).drop (i * n)).map itemOf, count⟩ :=
  @find_items store acc { args with limit := n, offset := i * n } keys h hn

theorem later_page {keys : List Sample} {n i : ℕ} (hi : i ≠ 0) : (keys.take n).drop (i * n) = [] := by
  rw [List.drop_eq_nil_iff, List.length_take]
  exact (min_le_left _ _).trans (Nat.le_mul_of_pos_left n (Nat.pos_of_ne_zero hi))

/-- The later pages are empty, so the first one must have all metrics. -/
theorem PagesComplete.length_le {store : MetricStore} {acc : Access} {args : MetricArgs}
    {keys : List Sample} {n : ℕ} (hcomplete : PagesComplete store acc args keys n)
    (h : requested store acc args = .ok keys) (hn : 1 ≤ n) : keys.length ≤ n := by
  obtain ⟨pages, hfind, hsize, -, hall⟩ := hcomplete
  have hempty : ∀ i, i ≠ 0 → pages i = [] := by
    intro i hi
    obtain ⟨count, hcount⟩ := find_page h hn i
    obtain ⟨count', hcount'⟩ := hfind i
    rw [hcount, later_page hi] at hcount'
    have hitems := congrArg MetricPage.items (Except.ok.inj hcount')
    exact List.map_eq_nil_iff.mp hitems.symm
  have hfirst : keys ⊆ pages 0 := by
    intro s hs
    obtain ⟨i, hi⟩ := (hall s).mp hs
    by_cases hzero : i = 0
    · rwa [hzero] at hi
    · rw [hempty i hzero] at hi
      cases hi
  exact ((requested_nodup h).subperm hfirst).length_le.trans (hsize 0).1

/-- The pages give every metric just when there are no more than fit on the first. -/
theorem pages_complete_iff {store : MetricStore} {acc : Access} {args : MetricArgs} {keys : List Sample}
    (h : requested store acc args = .ok keys) {n : ℕ} (hn : 1 ≤ n) :
    PagesComplete store acc args keys n ↔ keys.length ≤ n := by
  refine ⟨fun hcomplete => hcomplete.length_le h hn, fun hle => ?_⟩
  have hwhole : (keys.take n).drop (0 * n) = keys := by
    rw [Nat.zero_mul, List.drop_zero, List.take_of_length_le hle]
  refine ⟨_, find_page h hn, fun i => ⟨?_, ?_⟩, fun i j hne => ?_, fun s => ⟨fun hs => ⟨0, ?_⟩, ?_⟩⟩
  · exact ((List.drop_sublist ..).length_le).trans (List.length_take_le ..)
  · exact (requested_nodup h).sublist ((List.drop_sublist ..).trans (List.take_sublist ..))
  · rcases Nat.eq_zero_or_pos i with rfl | hi
    · exact later_page hne.symm ▸ List.disjoint_nil_right _
    · exact later_page hi.ne' ▸ List.disjoint_nil_left _
  · show s ∈ (keys.take n).drop (0 * n)
    rwa [hwhole]
  · rintro ⟨i, hi⟩
    exact List.mem_of_mem_take (List.mem_of_mem_drop hi)

/-- Two counters, and patterns of which only the one for all metrics is used. -/
def exampleStore : MetricStore where
  samples := [⟨"api_calls_total", ["resource=person"], .int 4⟩,
    ⟨"api_calls_total", ["resource=settings"], .int 7⟩]
  nodup := by decide +kernel
  matching pattern k := decide (pattern = "mtr:*:*") && "mtr:".toList.isPrefixOf k.toList

/-- An administrator's request. -/
def exampleAdmin : Access := { auth := some ["admin"], uid := some "x-23450001" }

/-- Both counters on one page. -/
theorem two_on_a_page : PagesComplete exampleStore exampleAdmin {} exampleStore.samples 2 :=
  (@pages_complete_iff exampleStore exampleAdmin {} exampleStore.samples rfl 2 (by decide)).mpr
    (by decide)

/-- One counter on a page: the second is on none. -/
theorem second_counter_missing :
    ¬ PagesComplete exampleStore exampleAdmin {} exampleStore.samples 1 :=
  fun hcomplete => absurd (hcomplete.length_le rfl (by decide)) (by decide)

end Metrics

end Apicrud
