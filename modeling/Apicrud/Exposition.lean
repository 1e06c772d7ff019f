import Apicrud.MetricListing

/-! # Metrics for Prometheus

`Metrics.collect` writes the metrics of a scan as a text for Prometheus, one after the other: for each of
them the line with its type, and the line with its labels and its value.  An exposition has one line with
the type for a name, and below it the samples of that name; backslashes, quotes and line feeds of a label's
value are escaped (`Exposes`).

So the text is an exposition just when no two of the metrics have the same name and no value of a label
has an equals sign, a backslash or a line feed: `collect_exposes_iff`.  That a text which is none differs
from every exposition is seen from its number of line feeds and its length. -/

namespace Text

/-! ### Weights of texts -/

/-- The sum of what the characters weigh. -/
def weight (w : Char → ℕ) (s : String) : ℕ := (s.toList.map w).sum

/-- Line feeds are counted. -/
def feeds : String → ℕ := weight fun c => if c = '\n' then 1 else 0

/-- Characters are counted. -/
def size : String → ℕ := weight fun _ => 1

variable (w : Char → ℕ)

@[simp] theorem weight_append (s t : String) : weight w (s ++ t) = weight w s + weight w t := by
  simp [weight]

theorem weight_flatMap {α : Type*} (l : List α) (f : α → String) :
    weight w (String.ofList (l.flatMap fun x => (f x).toList)) = (l.map fun x => weight w (f x)).sum := by
  rw [weight, String.toList_ofList]
  induction l with
  | nil => rfl
  | cons x l ih => rw [List.flatMap_cons, List.map_append, List.sum_append, ih, List.map_cons,
      List.sum_cons, weight]

theorem size_eq (s : String) : size s = s.length := by
  rw [size, weight, List.map_const', List.sum_replicate, String.length_toList, smul_eq_mul, mul_one]

theorem feeds_eq_zero {s : String} : feeds s = 0 ↔ '\n' ∉ s.toList := by
  rw [feeds, weight, List.sum_eq_zero_iff]
  constructor
  · intro h hc
    have h1 := h 1 (List.mem_map.mpr ⟨'\n', hc, rfl⟩)
    cases h1
  · intro h n hn
    obtain ⟨c, hc, rfl⟩ := List.mem_map.mp hn
    have hne : c ≠ '\n' := fun heq => h (heq ▸ hc)
    exact if_neg hne

theorem join_cons_cons (a b : String) (l : List String) (c : Char) :
    join (a :: b :: l) c = a ++ String.ofList [c] ++ join (b :: l) c := by
  apply String.toList_injective
  simp [join]

/-- A join of parts with something in the middle: what is in the middle is added to the weight. -/
theorem weight_join {α : Type*} (l : List α) (c : Char) (before middle after : α → String) :
    weight w (join (l.map fun x => before x ++ middle x ++ after x) c) =
      weight w (join (l.map fun x => before x ++ after x) c) + (l.map fun x => weight w (middle x)).sum := by
  have hone : ∀ s, join [s] c = s := by
    intro s
    apply String.toList_injective
    simp [join]
  induction l with
  | nil => rfl
  | cons x l ih =>
      cases l with
      | nil =>
          simp only [List.map_cons, List.map_nil, hone, weight_append, List.sum_cons, List.sum_nil]
          omega
      | cons y l =>
          simp only [List.map_cons, join_cons_cons, weight_append, List.sum_cons] at ih ⊢
          omega

/-- The characters of a join are those of the parts, and the separator. -/
theorem mem_join {parts : List String} {c x : Char} (h : x ∈ (join parts c).toList) :
    x = c ∨ ∃ s ∈ parts, x ∈ s.toList := by
  induction parts with
  | nil => cases h
  | cons s parts ih =>
      cases parts with
      | nil => exact Or.inr ⟨s, List.mem_singleton_self s, by simpa [join] using h⟩
      | cons t parts =>
          rw [join_cons_cons] at h
          simp only [String.toList_append, List.mem_append, String.toList_ofList,
            List.mem_singleton] at h
          rcases h with (h | h) | h
          · exact Or.inr ⟨s, List.mem_cons_self, h⟩
          · exact Or.inl h
          · rcases ih h with hc | ⟨u, hu, hx⟩
            · exact Or.inl hc
            · exact Or.inr ⟨u, List.mem_cons_of_mem s hu, hx⟩

end Text

namespace Apicrud

open Relational

/-- What is nowhere larger and not smaller in total is equal everywhere. -/
theorem eq_of_sum_le {α : Type*} {f g : α → ℕ} {l : List α} (h : ∀ x ∈ l, f x ≤ g x)
    (hsum : (l.map g).sum ≤ (l.map f).sum) : ∀ x ∈ l, f x = g x := by
  intro x hx
  by_contra hne
  exact absurd (List.sum_lt_sum f g h ⟨x, hx, lt_of_le_of_ne (h x hx) hne⟩) (not_lt.mpr hsum)

/-! ### What is collected -/

/-- The word of a `# TYPE` line; a grant is shown as a gauge. -/
def MetricStyle.exposed : MetricStyle → String
  | .grant => "gauge"
  | .counter => "counter"
  | .gauge => "gauge"

/-- A metric on its way to the text. -/
structure Exposed where
  name : String
  type_ : String
  labels : List String
  value : String
deriving DecidableEq

namespace Metrics

/-- The label of a request. -/
def collectLabel (args : MetricArgs) (filter : Dict) : String :=
  if "uid" ∈ filter then
    if (filter.get "uid").truthy then "uid=" ++ (filter.get "uid").text else "uid=*"
  else labelOf args filter

/-- The type of a metric; `none` where it is passed over: it is unknown, or a grant of no user. -/
def typeOf (conf : MetricConf) (label name : String) : Option String :=
  match conf.metrics name with
  | none => none
  | some metric =>
      if metric.style = .grant ∧ ¬ Text.Contains label "uid" then none
      else some metric.style.exposed

/-- The loop over the keys. -/
def collectItems (conf : MetricConf) (label : String) (limit : ℕ) :
    List Sample → ℕ → List Exposed → List Exposed
  | [], _, retval => retval
  | s :: rest, count, retval =>
      let name := (Text.split s.key ':').getD 1 ""
      match typeOf conf label name with
      | none => collectItems conf label limit rest count retval
      | some type_ =>
          let retval := retval ++
            [⟨name, type_, Text.split ((Text.split s.key ':').getD 2 "") ',', s.value.text⟩]
          if limit ≤ count + 1 then retval
          else collectItems conf label limit rest (count + 1) retval

/-- A label as it is written. -/
def labelText (label : String) : String :=
  if '=' ∈ label.toList then
    (Text.split label '=').getD 0 "" ++ "=\"" ++ (Text.split label '=').getD 1 "" ++ "\""
  else label

end Metrics

/-- The two lines of a metric. -/
def Exposed.text (e : Exposed) : String :=
  "# TYPE " ++ e.name ++ " " ++ e.type_ ++ "\n" ++
    (e.name ++ (if e.labels ≠ [] then
      "\x7b" ++ Text.join (e.labels.map Metrics.labelText) ',' ++ "\x7d" else "") ++ " " ++ e.value ++ "\n")

/-- `collect` -/
def Metrics.collect (conf : MetricConf) (store : MetricStore) (args : MetricArgs) :
    Except Response String := do
  let filter ← filterOf args
  let label := collectLabel args filter
  let items := collectItems conf label args.limit
    (store.scanIter (pattern (nameOf args filter) label)) 0 []
  pure (String.ofList (items.flatMap fun e => e.text.toList))

/-! ### Expositions -/

/-- A stored metric with labels of the form `name=value`; their values are free of commas, colons and
quotes. -/
structure LabelledSample where
  name : String
  pairs : List (String × String)
  value : MetricValue
  name_plain : ':' ∉ name.toList ∧ '\n' ∉ name.toList
  label_plain : ∀ p ∈ pairs, ∀ c ∈ p.1.toList, c ≠ '=' ∧ c ≠ ',' ∧ c ≠ ':' ∧ c ≠ '\n'
  labelValue_plain : ∀ p ∈ pairs, ∀ c ∈ p.2.toList, c ≠ ',' ∧ c ≠ ':' ∧ c ≠ '"'
  value_plain : '\n' ∉ value.text.toList

namespace LabelledSample

/-- What is stored. -/
def stored (s : LabelledSample) : Sample :=
  ⟨s.name, s.pairs.map fun p => p.1 ++ "=" ++ p.2, s.value⟩

/-- The line of a metric, with the values of its labels written in some way. -/
def line (written : String → String) (s : LabelledSample) : String :=
  s.name ++ "\x7b" ++
    Text.join (s.pairs.map fun p => p.1 ++ "=\"" ++ written p.2 ++ "\"") ',' ++ "\x7d " ++
    s.value.text ++ "\n"

/-- Samples are written by the values of their labels. -/
theorem line_congr {s : LabelledSample} {f g : String → String}
    (h : ∀ p ∈ s.pairs, f p.2 = g p.2) : s.line f = s.line g := by
  have hlabels : (s.pairs.map fun p => p.1 ++ "=\"" ++ f p.2 ++ "\"") =
      s.pairs.map fun p => p.1 ++ "=\"" ++ g p.2 ++ "\"" :=
    List.map_congr_left fun p hp => by rw [h p hp]
  unfold line
  rw [hlabels]

end LabelledSample

/-- How the value of a label is escaped. -/
def escapeChar (c : Char) : List Char :=
  if c = '\\' then ['\\', '\\'] else if c = '"' then ['\\', '"']
  else if c = '\n' then ['\\', 'n'] else [c]

/-- The value of a label within quotes. -/
def escape (v : String) : String := String.ofList (v.toList.flatMap escapeChar)

/-- The line with the type of a metric. -/
def typeLine (conf : MetricConf) (name : String) : String :=
  "# TYPE " ++ name ++ " " ++ ((conf.metrics name).map (·.style.exposed)).getD "untyped" ++ "\n"

/-- The samples of one name. -/
structure SampleGroup where
  name : String
  samples : List LabelledSample
  nonempty : samples ≠ []
  same : ∀ s ∈ samples, s.name = name

/-- The text is an exposition of the samples: one line with the type for a name, and below it the samples
of that name. -/
def Exposes (conf : MetricConf) (samples : List LabelledSample) (text : String) : Prop :=
  ∃ groups : List SampleGroup, (groups.map SampleGroup.name).Nodup ∧
    (groups.flatMap SampleGroup.samples).Perm samples ∧
    text = String.ofList (groups.flatMap fun g => (typeLine conf g.name ++
      String.ofList (g.samples.flatMap fun s => (s.line escape).toList)).toList)

/-- Metrics in redis with labels of that form. -/
structure LabelledStore where
  samples : List LabelledSample
  nodup : ((samples.map LabelledSample.stored).map Sample.key).Nodup
  matching : String → String → Bool

/-- The keys in redis. -/
def LabelledStore.store (store : LabelledStore) : MetricStore :=
  ⟨store.samples.map LabelledSample.stored, store.nodup, store.matching⟩

/-- The metrics that are collected: those that match, have a type, and are within the limit. -/
def LabelledStore.reported (conf : MetricConf) (store : LabelledStore) (args : MetricArgs)
    (filter : Dict) : List LabelledSample :=
  let label := Metrics.collectLabel args filter
  ((store.samples.filter fun s => store.matching (Metrics.pattern (Metrics.nameOf args filter) label)
    s.stored.key).filter fun s => (Metrics.typeOf conf label s.name).isSome).take (max args.limit 1)

/-! ### What is read back -/

namespace LabelledSample

variable (s : LabelledSample)

theorem mem_labels {c : Char} (h : c ∈ (Text.join s.stored.labels ',').toList) : c ≠ ':' := by
  rcases Text.mem_join h with rfl | ⟨label, hlabel, hc⟩
  · decide
  · obtain ⟨p, hp, rfl⟩ := List.mem_map.mp hlabel
    simp only [String.toList_append, List.mem_append] at hc
    rcases hc with (hc | hc) | hc
    · exact (s.label_plain p hp c hc).2.2.1
    · rw [List.mem_singleton.mp hc]
      decide
    · exact (s.labelValue_plain p hp c hc).2.1

/-- The parts of the key. -/
theorem split_key : Text.split s.stored.key ':' = ["mtr", s.name, Text.join s.stored.labels ','] := by
  have hkey : s.stored.key = Text.join ["mtr", s.name, Text.join s.stored.labels ','] ':' := by
    apply String.toList_injective
    simp [Sample.key, Metrics.key, Text.join, stored]
  rw [hkey]
  refine Text.split_join (by simp) fun part hpart => ?_
  simp only [List.mem_cons, List.not_mem_nil, or_false] at hpart
  rcases hpart with rfl | rfl | rfl
  · decide
  · exact s.name_plain.1
  · exact fun hc => s.mem_labels hc rfl

/-- The labels are read back; where there are none, an empty text is. -/
theorem split_labels : Text.split (Text.join s.stored.labels ',') ',' =
    if s.pairs = [] then [""] else s.stored.labels := by
  split_ifs with hpairs
  · rw [stored, hpairs]
    rfl
  · refine Text.split_join (by simpa [stored] using hpairs) fun label hlabel hc => ?_
    obtain ⟨p, hp, rfl⟩ := List.mem_map.mp hlabel
    simp only [String.toList_append, List.mem_append] at hc
    rcases hc with (hc | hc) | hc
    · exact (s.label_plain p hp ',' hc).2.1 rfl
    · cases List.mem_singleton.mp hc
    · exact (s.labelValue_plain p hp ',' hc).1 rfl

end LabelledSample

/-- What stands before the first equals sign of a value. -/
def cut (v : String) : String := String.ofList (v.toList.takeWhile (· ≠ '='))

/-- A label is written with its value cut off at an equals sign. -/
theorem labelText_eq {n v : String} (h : '=' ∉ n.toList) :
    Metrics.labelText (n ++ "=" ++ v) = n ++ "=\"" ++ cut v ++ "\"" := by
  have hlist : (n ++ "=" ++ v).toList = n.toList ++ '=' :: v.toList := by simp
  have hsplit : Text.split (n ++ "=" ++ v) '=' = n :: (v.toList.splitOn '=').map String.ofList := by
    rw [Text.split, hlist, List.splitOn_append_cons_self_of_not_mem h, List.map_cons,
      String.ofList_toList]
  have hmem : '=' ∈ (n ++ "=" ++ v).toList := by
    rw [hlist]
    exact List.mem_append_right _ List.mem_cons_self
  have hvalue : (Text.split (n ++ "=" ++ v) '=').getD 1 "" = cut v := by
    have hhead := Text.split_headD v.toList '='
    rw [Text.split, String.toList_ofList] at hhead
    rw [hsplit, List.getD_cons_succ, cut, ← hhead, List.headD_eq_head?_getD, List.getD_eq_getElem?_getD,
      List.head?_eq_getElem?]
  rw [Metrics.labelText, if_pos hmem, hvalue, hsplit, List.getD_cons_zero]

/-- What is read of a metric that has a type. -/
def exposedOf (conf : MetricConf) (s : LabelledSample) : Exposed :=
  ⟨s.name, ((conf.metrics s.name).map (·.style.exposed)).getD "untyped",
    if s.pairs = [] then [""] else s.stored.labels, s.value.text⟩

theorem typeOf_eq {conf : MetricConf} {label name type_ : String}
    (h : Metrics.typeOf conf label name = some type_) :
    type_ = ((conf.metrics name).map (·.style.exposed)).getD "untyped" := by
  unfold Metrics.typeOf at h
  cases hmetric : conf.metrics name with
  | none =>
      rw [hmetric] at h
      cases h
  | some metric =>
      rw [hmetric] at h
      simp only at h
      split_ifs at h
      cases h
      rfl

/-- The two lines that are written for a metric. -/
theorem exposedOf_text (conf : MetricConf) (s : LabelledSample) :
    (exposedOf conf s).text = typeLine conf s.name ++ s.line cut := by
  have hlabels : (exposedOf conf s).labels ≠ [] := by
    unfold exposedOf
    split_ifs with hpairs
    · simp
    · simpa [LabelledSample.stored] using hpairs
  have hjoin : Text.join ((exposedOf conf s).labels.map Metrics.labelText) ',' =
      Text.join (s.pairs.map fun p => p.1 ++ "=\"" ++ cut p.2 ++ "\"") ',' := by
    unfold exposedOf
    split_ifs with hpairs
    · rw [hpairs]
      rfl
    · simp only [LabelledSample.stored, List.map_map]
      refine congrArg (Text.join · ',') (List.map_congr_left fun p hp => ?_)
      exact labelText_eq fun hc => (s.label_plain p hp '=' hc).1 rfl
  rw [Exposed.text, if_pos hlabels, hjoin]
  simp only [exposedOf, typeLine, LabelledSample.line, String.append_assoc]
  rfl

/-- The loop keeps the metrics that have a type, up to the limit. -/
theorem collectItems_eq (conf : MetricConf) (label : String) (limit : ℕ) (l : List LabelledSample)
    (count : ℕ) (retval : List Exposed) :
    Metrics.collectItems conf label limit (l.map LabelledSample.stored) count retval =
      retval ++ ((l.filter fun s => (Metrics.typeOf conf label s.name).isSome).take
        (max (limit - count) 1)).map (exposedOf conf) := by
  induction l generalizing count retval with
  | nil => simp [Metrics.collectItems]
  | cons s l ih =>
      have hname : (Text.split s.stored.key ':').getD 1 "" = s.name := by
        rw [s.split_key]
        rfl
      have hlabels : Text.split ((Text.split s.stored.key ':').getD 2 "") ',' =
          if s.pairs = [] then [""] else s.stored.labels := by
        rw [s.split_key]
        exact s.split_labels
      rw [List.map_cons, Metrics.collectItems]
      simp only [hname, hlabels]
      cases htype : Metrics.typeOf conf label s.name with
      | none =>
          rw [List.filter_cons_of_neg (by simp [htype])]
          exact ih count retval
      | some type_ =>
          have hitem : (⟨s.name, type_, if s.pairs = [] then [""] else s.stored.labels,
              s.stored.value.text⟩ : Exposed) = exposedOf conf s := by
            rw [typeOf_eq htype]
            rfl
          rw [List.filter_cons_of_pos (by simp [htype])]
          simp only [hitem]
          by_cases hlast : limit ≤ count + 1
          · have hmax : max (limit - count) 1 = 1 := by omega
            rw [if_pos hlast, hmax]
            rfl
          · have hmax : max (limit - count) 1 = max (limit - (count + 1)) 1 + 1 := by omega
            rw [if_neg hlast, ih, hmax, List.take_succ_cons, List.map_cons, List.append_assoc]
            rfl

/-- The text that is collected. -/
theorem collect_eq {conf : MetricConf} {store : LabelledStore} {args : MetricArgs} {filter : Dict}
    (h : Metrics.filterOf args = .ok filter) : Metrics.collect conf store.store args =
      .ok (String.ofList ((store.reported conf args filter).flatMap fun s =>
        (typeLine conf s.name ++ s.line cut).toList)) := by
  have hscan : store.store.scanIter (Metrics.pattern (Metrics.nameOf args filter)
      (Metrics.collectLabel args filter)) = (store.samples.filter fun s => store.matching
        (Metrics.pattern (Metrics.nameOf args filter) (Metrics.collectLabel args filter))
        s.stored.key).map LabelledSample.stored := by
    rw [MetricStore.scanIter, LabelledStore.store, List.filter_map]
    rfl
  rw [Metrics.collect, h]
  show Except.ok _ = _
  rw [hscan, collectItems_eq, List.nil_append, Nat.sub_zero, List.flatMap_map]
  simp only [exposedOf_text]
  rfl

/-! ### Line feeds and lengths -/

section Values

variable (v : String)

theorem size_cut_le : Text.size (cut v) ≤ Text.size v := by
  rw [Text.size_eq, Text.size_eq, cut, ← String.length_toList, String.toList_ofList, ← String.length_toList]
  exact (List.takeWhile_sublist _).length_le

theorem size_escape : Text.size (escape v) = (v.toList.map fun c => (escapeChar c).length).sum := by
  rw [Text.size_eq, escape, ← String.length_toList, String.toList_ofList, List.length_flatMap]

theorem one_le_escapeChar (c : Char) : 1 ≤ (escapeChar c).length := by
  unfold escapeChar
  split_ifs <;> simp

theorem size_le_escape : Text.size v ≤ Text.size (escape v) := by
  rw [size_escape, Text.size, Text.weight]
  exact List.sum_le_sum fun c _ => one_le_escapeChar c

theorem feeds_escape : Text.feeds (escape v) = 0 := by
  rw [Text.feeds_eq_zero, escape, String.toList_ofList, List.mem_flatMap]
  rintro ⟨c, -, hc⟩
  unfold escapeChar at hc
  split_ifs at hc with hslash hquote hfeed
  · simp at hc
  · simp at hc
  · simp at hc
  · exact hfeed (List.mem_singleton.mp hc).symm

variable {v}

/-- A value that is not shorter when it is cut and not longer when it is escaped is written as it is. -/
theorem plain_of_size (h : Text.size (cut v) = Text.size (escape v)) :
    '=' ∉ v.toList ∧ '\\' ∉ v.toList ∧ '\n' ∉ v.toList := by
  have hcut : Text.size (cut v) = Text.size v :=
    le_antisymm (size_cut_le v) ((size_le_escape v).trans_eq h.symm)
  have hescape : (v.toList.map fun c => (escapeChar c).length).sum ≤
      (v.toList.map fun _ => 1).sum := by
    rw [← size_escape, ← h]
    exact size_cut_le v
  have hchars := eq_of_sum_le (fun c _ => one_le_escapeChar c) hescape
  refine ⟨fun hc => ?_, fun hc => ?_, fun hc => ?_⟩
  · rw [Text.size_eq, Text.size_eq, cut, ← String.length_toList, String.toList_ofList,
      ← String.length_toList] at hcut
    have hwhole := (List.takeWhile_prefix _).eq_of_length hcut
    have htrue := List.mem_takeWhile_imp (hwhole.symm ▸ hc)
    simp at htrue
  · have hlength := hchars '\\' hc
    cases hlength
  · have hlength := hchars '\n' hc
    cases hlength

theorem cut_eq (h : '=' ∉ v.toList) : cut v = v := by
  have hall : v.toList.takeWhile (· ≠ '=') = v.toList := by
    rw [List.takeWhile_eq_self_iff]
    exact fun c hc => decide_eq_true fun heq => h (heq ▸ hc)
  rw [cut, hall, String.ofList_toList]

theorem escape_eq (hslash : '\\' ∉ v.toList) (hquote : '"' ∉ v.toList) (hfeed : '\n' ∉ v.toList) :
    escape v = v := by
  have hchars : v.toList.flatMap escapeChar = v.toList.flatMap fun c => [c] := by
    refine List.flatMap_congr fun c hc => ?_
    have hne : c ≠ '\\' ∧ c ≠ '"' ∧ c ≠ '\n' :=
      ⟨fun heq => hslash (heq ▸ hc), fun heq => hquote (heq ▸ hc), fun heq => hfeed (heq ▸ hc)⟩
    rw [escapeChar, if_neg hne.1, if_neg hne.2.1, if_neg hne.2.2]
  rw [escape, hchars, List.flatMap_singleton', String.ofList_toList]

end Values

namespace LabelledSample

variable (s : LabelledSample)

/-- What the values of the labels add to the weight of the line. -/
theorem weight_line (w : Char → ℕ) (written : String → String) :
    Text.weight w (s.line written) = Text.weight w (s.line fun _ => "") +
      (s.pairs.map fun p => Text.weight w (written p.2)).sum := by
  have hjoin := Text.weight_join w s.pairs ',' (fun p => p.1 ++ "=\"") (fun p => written p.2)
    (fun _ => "\"")
  simp only [line, Text.weight_append, hjoin, String.append_empty]
  omega

theorem feeds_line (written : String → String) :
    Text.feeds (s.line written) = 1 + (s.pairs.map fun p => Text.feeds (written p.2)).sum := by
  have hjoin : '\n' ∉ (Text.join (s.pairs.map fun p => p.1 ++ "=\"" ++ "" ++ "\"") ',').toList := by
    intro hc
    rcases Text.mem_join hc with heq | ⟨label, hlabel, hc⟩
    · cases heq
    · obtain ⟨p, hp, rfl⟩ := List.mem_map.mp hlabel
      simp only [String.toList_append, List.mem_append] at hc
      rcases hc with ((hc | hc) | hc) | hc
      · exact (s.label_plain p hp '\n' hc).2.2.2 rfl
      · simp at hc
      · simp at hc
      · simp at hc
  have hbare : Text.feeds (s.line fun _ => "") = 1 := by
    have hname := Text.feeds_eq_zero.mpr s.name_plain.2
    have hvalue := Text.feeds_eq_zero.mpr s.value_plain
    have hlabels := Text.feeds_eq_zero.mpr hjoin
    unfold Text.feeds at hname hvalue hlabels ⊢
    simp only [line, Text.weight_append, hname, hvalue, hlabels]
    decide
  have hweight := s.weight_line (fun c => if c = '\n' then 1 else 0) written
  rw [Text.feeds, hweight, ← Text.feeds, hbare]

theorem feeds_typeLine (conf : MetricConf) : Text.feeds (typeLine conf s.name) = 1 := by
  have hname := Text.feeds_eq_zero.mpr s.name_plain.2
  have htype : Text.feeds (((conf.metrics s.name).map (·.style.exposed)).getD "untyped") = 0 := by
    cases conf.metrics s.name with
    | none => decide
    | some metric =>
        show Text.feeds metric.style.exposed = 0
        cases metric.style <;> decide
  unfold Text.feeds at hname htype ⊢
  simp only [typeLine, Text.weight_append, hname, htype]
  decide

end LabelledSample

/-! ### When the text is an exposition -/

namespace SampleGroup

variable (g : SampleGroup)

theorem one_le_length : 1 ≤ g.samples.length := List.length_pos_iff.mpr g.nonempty

theorem feeds_typeLine (conf : MetricConf) : Text.feeds (typeLine conf g.name) = 1 := by
  obtain ⟨s, hs⟩ := List.exists_mem_of_ne_nil _ g.nonempty
  rw [← g.same s hs]
  exact s.feeds_typeLine conf

end SampleGroup

theorem sum_flatMap {α β : Type*} (f : β → ℕ) (samples : α → List β) (l : List α) :
    ((l.flatMap samples).map f).sum = (l.map fun x => ((samples x).map f).sum).sum := by
  induction l with
  | nil => rfl
  | cons x l ih => rw [List.flatMap_cons, List.map_append, List.sum_append, ih, List.map_cons, List.sum_cons]

section TwoTexts

variable {conf : MetricConf} {samples : List LabelledSample} {groups : List SampleGroup}
  (hperm : (groups.flatMap SampleGroup.samples).Perm samples)
  (htext : String.ofList (samples.flatMap fun s => (typeLine conf s.name ++ s.line cut).toList) =
    String.ofList (groups.flatMap fun g => (typeLine conf g.name ++
      String.ofList (g.samples.flatMap fun s => (s.line escape).toList)).toList))
include hperm htext

/-- The two texts have the same weight. -/
theorem weight_eq (w : Char → ℕ) :
    (samples.map fun s => Text.weight w (typeLine conf s.name)).sum +
      (samples.map fun s => Text.weight w (s.line cut)).sum =
    (groups.map fun g => Text.weight w (typeLine conf g.name)).sum +
      (samples.map fun s => Text.weight w (s.line escape)).sum := by
  have hweight := congrArg (Text.weight w) htext
  simp only [Text.weight_append, Text.weight_flatMap] at hweight
  rw [List.sum_map_add, List.sum_map_add,
    ← sum_flatMap (fun s => Text.weight w (s.line escape)) SampleGroup.samples,
    (hperm.map _).sum_eq] at hweight
  exact hweight

/-- There are as many line feeds in both, so every group has one sample. -/
theorem length_eq_one : ∀ g ∈ groups, 1 = g.samples.length := by
  have hfeeds := weight_eq hperm htext fun c => if c = '\n' then 1 else 0
  have htypes : (samples.map fun s => Text.feeds (typeLine conf s.name)).sum = samples.length := by
    simp [LabelledSample.feeds_typeLine]
  have hgroups : (groups.map fun g => Text.feeds (typeLine conf g.name)).sum = groups.length := by
    simp [SampleGroup.feeds_typeLine]
  have hcut : samples.length ≤ (samples.map fun s => Text.feeds (s.line cut)).sum := by
    have hle : (samples.map fun _ => 1).sum ≤ (samples.map fun s => Text.feeds (s.line cut)).sum :=
      List.sum_le_sum fun s _ => by rw [s.feeds_line]; omega
    simpa using hle
  have hescape : (samples.map fun s => Text.feeds (s.line escape)).sum = samples.length := by
    simp [LabelledSample.feeds_line, feeds_escape]
  have hlength : (groups.map fun g => g.samples.length).sum = samples.length := by
    rw [← hperm.length_eq, List.length_flatMap]
  have hone : (groups.map fun _ => 1).sum = groups.length := by simp
  refine eq_of_sum_le (fun g _ => g.one_le_length) ?_
  unfold Text.feeds at htypes hgroups hcut hescape
  omega

/-- So the names of the groups are those of the samples. -/
theorem names_perm : (samples.map LabelledSample.name).Perm (groups.map SampleGroup.name) := by
  have hnames : (groups.flatMap SampleGroup.samples).map LabelledSample.name =
      groups.map SampleGroup.name := by
    rw [List.map_flatMap, List.map_eq_flatMap]
    refine List.flatMap_congr fun g hg => ?_
    obtain ⟨s, hs⟩ := List.length_eq_one_iff.mp (length_eq_one hperm htext g hg).symm
    rw [hs, List.map_singleton, g.same s (hs ▸ List.mem_singleton_self s)]
  exact hnames ▸ (hperm.map LabelledSample.name).symm

/-- And every line is as long in both, so that the values are written as they are. -/
theorem values_plain : ∀ s ∈ samples, ∀ p ∈ s.pairs,
    '=' ∉ p.2.toList ∧ '\\' ∉ p.2.toList ∧ '\n' ∉ p.2.toList := by
  have hsize := weight_eq hperm htext fun _ => 1
  have htypes : (samples.map fun s => Text.size (typeLine conf s.name)).sum =
      (groups.map fun g => Text.size (typeLine conf g.name)).sum := by
    have hmap := ((names_perm hperm htext).map fun name => Text.size (typeLine conf name)).sum_eq
    rwa [List.map_map, List.map_map] at hmap
  have hle : ∀ s : LabelledSample, ∀ p ∈ s.pairs, Text.size (cut p.2) ≤ Text.size (escape p.2) :=
    fun s p _ => (size_cut_le p.2).trans (size_le_escape p.2)
  have hvalues : ∀ s ∈ samples, (s.pairs.map fun p => Text.size (cut p.2)).sum =
      (s.pairs.map fun p => Text.size (escape p.2)).sum := by
    refine eq_of_sum_le (fun s _ => List.sum_le_sum (hle s)) ?_
    unfold Text.size at htypes ⊢
    simp only [LabelledSample.weight_line _ _ cut, LabelledSample.weight_line _ _ escape,
      List.sum_map_add] at hsize
    omega
  intro s hs p hp
  exact plain_of_size (eq_of_sum_le (hle s) (hvalues s hs).ge p hp)

end TwoTexts

/-- What is written for some metrics is an exposition of them just when no two have the same name and no
value of a label has to be cut or escaped. -/
theorem exposes_iff (conf : MetricConf) (samples : List LabelledSample) :
    Exposes conf samples (String.ofList (samples.flatMap fun s =>
        (typeLine conf s.name ++ s.line cut).toList)) ↔
      (samples.map LabelledSample.name).Nodup ∧ ∀ s ∈ samples, ∀ p ∈ s.pairs,
        '=' ∉ p.2.toList ∧ '\\' ∉ p.2.toList ∧ '\n' ∉ p.2.toList := by
  constructor
  · rintro ⟨groups, hnodup, hperm, htext⟩
    exact ⟨(names_perm hperm htext).nodup_iff.mpr hnodup, values_plain hperm htext⟩
  · rintro ⟨hnodup, hplain⟩
    let group := fun s : LabelledSample => SampleGroup.mk s.name [s] (List.cons_ne_nil s [])
      fun s' hs' => by rw [List.mem_singleton.mp hs']
    refine ⟨samples.map group, ?_, ?_, ?_⟩
    · rwa [List.map_map]
    · rw [List.flatMap_map, List.flatMap_singleton']
    · rw [List.flatMap_map]
      refine congrArg String.ofList (List.flatMap_congr fun s hs => ?_)
      have hline : s.line cut = s.line escape := by
        refine LabelledSample.line_congr fun p hp => ?_
        obtain ⟨hequals, hslash, hfeed⟩ := hplain s hs p hp
        rw [cut_eq hequals, escape_eq hslash (fun hc => (s.labelValue_plain p hp '"' hc).2.2 rfl) hfeed]
      show (typeLine conf s.name ++ s.line cut).toList = (typeLine conf s.name ++
        String.ofList ([s].flatMap fun s => (s.line escape).toList)).toList
      rw [hline, List.flatMap_singleton, String.ofList_toList]

/-- The text of a request is an exposition of the metrics that are collected just when no two of these have
the same name and no value of a label has an equals sign, a backslash or a line feed. -/
theorem collect_exposes_iff {conf : MetricConf} {store : LabelledStore} {args : MetricArgs} {filter : Dict}
    (h : Metrics.filterOf args = .ok filter) :
    (∃ text, Metrics.collect conf store.store args = .ok text ∧
        Exposes conf (store.reported conf args filter) text) ↔
      ((store.reported conf args filter).map LabelledSample.name).Nodup ∧
        ∀ s ∈ store.reported conf args filter, ∀ p ∈ s.pairs,
          '=' ∉ p.2.toList ∧ '\\' ∉ p.2.toList ∧ '\n' ∉ p.2.toList := by
  rw [← exposes_iff conf, collect_eq h]
  constructor
  · rintro ⟨text, htext, hexposes⟩
    rwa [← Except.ok.inj htext] at hexposes
  · exact fun hexposes => ⟨_, rfl, hexposes⟩

/-- The calls of one resource. -/
def exampleCalls (resource : String) (n : ℤ)
    (h : ∀ c ∈ resource.toList, c ≠ ',' ∧ c ≠ ':' ∧ c ≠ '"') (hn : '\n' ∉ (toString n).toList) :
    LabelledSample where
  name := "api_calls_total"
  pairs := [("resource", resource)]
  value := .int n
  name_plain := by decide
  label_plain p hp := by
    rw [List.mem_singleton.mp hp]
    simp
  labelValue_plain p hp := by rwa [List.mem_singleton.mp hp]
  value_plain := hn

/-- Every metric is a counter. -/
def exampleCounters : MetricConf := ⟨fun _ => some { style := .counter }, "i-0001"⟩

/-- The calls of one resource, and patterns of which only the one for all metrics is used. -/
def oneResource : LabelledStore where
  samples := [exampleCalls "person" 4 (by simp) (by decide)]
  nodup := by decide +kernel
  matching pattern k := decide (pattern = "mtr:*:*") && "mtr:".toList.isPrefixOf k.toList

/-- The calls of two resources. -/
def twoResources : LabelledStore where
  samples := [exampleCalls "person" 4 (by simp) (by decide),
    exampleCalls "settings" 7 (by simp) (by decide)]
  nodup := by decide +kernel
  matching pattern k := decide (pattern = "mtr:*:*") && "mtr:".toList.isPrefixOf k.toList

/-- One resource is exposed. -/
theorem one_resource_exposed : ∃ text,
    Metrics.collect exampleCounters oneResource.store {} = .ok text ∧
      Exposes exampleCounters (oneResource.reported exampleCounters {} ∅) text :=
  (@collect_exposes_iff exampleCounters oneResource {} ∅ rfl).mpr (by decide +kernel)

/-- Of two resources, each has a line with the type. -/
theorem type_repeated : ¬ ∃ text,
    Metrics.collect exampleCounters twoResources.store {} = .ok text ∧
      Exposes exampleCounters (twoResources.reported exampleCounters {} ∅) text := by
  rintro ⟨text, htext, hexposes⟩
  rw [collect_eq rfl] at htext
  rw [← Except.ok.inj htext] at hexposes
  exact absurd ((exposes_iff _ _).mp hexposes).1 (by decide +kernel)

end Apicrud
