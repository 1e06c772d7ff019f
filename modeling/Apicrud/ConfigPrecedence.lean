import Apicrud.ServiceConfig

/-! # Where the values of the configuration come from

Each turn of the loop looks at the sources of one key only: the environment, what is left of the file, the
keyword arguments and the schema.  What it takes out of the file is its own key, so its value is the one that
the sources give before the loop, whatever `state` was left by earlier calls (`setProperty_eq`,
`setProperties_some`).

The special cases then change their own keys, and `state` has three entries of its own: `precedence` holds
for all other keys. -/

namespace Apicrud

namespace ServiceConfig

open Interruptible

/-! ### The sources of one key -/

/-- The default of an object with the values of the file put in; `none` where that raises. -/
def merged (default : Option Json) (value : Json) : Option Json :=
  match default with
  | some (.obj fields) =>
      if (Json.update fields value).2 then some (.obj (Json.update fields value).1) else none
  | _ => none

/-- The keyword value, or else the default, or else the composed `db_url`. -/
def Call.otherwise (call : Call) (p : String × Property) : Option Json :=
  match Assoc.get call.kwargs p.1 with
  | some value => some value
  | none =>
      match p.2.default with
      | some value => some value
      | none => if p.1 = "db_url" then composeDbUrl call.environ else none

/-- The value that the sources give to a key, with a file of these fields. -/
def Call.valueIn (call : Call) (host : Host) (fields : Json.Fields) (p : String × Property) :
    Option Json :=
  match call.variable host p.1 with
  | some text => parse host p.2.type text
  | none =>
      match Assoc.get fields p.1 with
      | some value => p.2.type.bind fun type =>
          if type = "object" then merged p.2.default value else some value
      | none => call.otherwise p

/-- What a key is left with when merging the values of the file raises. -/
def spoiledBy (default : Option Json) (value : Json) : Option Json :=
  match default with
  | some (.obj fields) => some (.obj (Json.update fields value).1)
  | default => default

/-- What a key is left with, if with anything, when its value raises. -/
def Call.spoiledIn (call : Call) (host : Host) (fields : Json.Fields) (p : String × Property) :
    Option Json :=
  match call.variable host p.1 with
  | some _ => none
  | none =>
      match Assoc.get fields p.1 with
      | some value => if p.2.type = some "object" then spoiledBy p.2.default value else none
      | none => none

/-- What is left under a key whose value raises. -/
def Process.spoil (s : Process) (key : String) : Option Json → Process
  | some j => s.assign key (.json j)
  | none => s

variable {host : Host} {call : Call} {fields : Json.Fields} {p : String × Property} {s s' : Process}

theorem contains_obj (key : String) :
    contains key (.obj fields) = some (Assoc.get fields (.str key)).isSome := by
  unfold contains
  rw [Option.some.injEq, Bool.eq_iff_iff, decide_eq_true_eq, ← not_iff_not, ← Assoc.get_eq_none]
  simp

/-- A key that is not in the file is not missed there. -/
theorem erase_of_get_none {key : HashKey} (h : Assoc.get fields key = none) :
    Assoc.erase fields key = fields := Assoc.erase_eq_self (Assoc.get_eq_none.mp h)

/-- Two values for one key, one after the other. -/
theorem Process.assign_assign (s : Process) (key : String) (item item' : Item) :
    (s.assign key item).assign key item' = s.assign key item' := by
  unfold Process.assign
  rw [Assoc.set_set]

theorem pop_obj {value : Json} {key : String} (hget : Assoc.get fields (.str key) = some value) :
    pop key (.obj fields) = some (value, .obj (Assoc.erase fields key)) := by
  show (Assoc.get fields (.str key)).map _ = _
  rw [hget]
  rfl

/-- The values of an object are merged. -/
theorem merge_eq {value : Json} (hget : Assoc.get fields (.str p.1) = some value) :
    merge (.obj fields) p.1 p.2 s =
      match merged p.2.default value with
      | some v => (s.assign p.1 (.json v), some (.obj (Assoc.erase fields p.1)))
      | none => (s.spoil p.1 (spoiledBy p.2.default value), none) := by
  unfold merge merged spoiledBy
  cases hdefault : p.2.default with
  | none => rfl
  | some default =>
      cases default with
      | obj defaults =>
          simp only [bind_run, ofOption_run, assign_run, pop_obj hget, Process.assign_assign]
          by_cases hdone : (Json.update defaults value).2 = true
          · rw [if_pos hdone, if_pos hdone]
            rfl
          · rw [if_neg hdone, if_neg hdone]
            rfl
      | null | bool _ | num _ | str _ | arr _ => rfl

theorem setOtherwise_eq {overrides : Json} : setOtherwise call overrides p s =
    match call.otherwise p with
    | some v => (s.assign p.1 (.json v), some overrides)
    | none => (s, none) := by
  unfold setOtherwise Call.otherwise
  cases hkwargs : Assoc.get call.kwargs p.1 with
  | some value => rfl
  | none =>
      simp only
      cases hdefault : p.2.default with
      | some value => rfl
      | none =>
          simp only
          by_cases hurl : p.1 = "db_url"
          · rw [if_pos hurl, if_pos hurl]
            cases hcompose : composeDbUrl call.environ with
            | none => simp only [bind_run, ofOption_run]
            | some value => simp only [bind_run, ofOption_run, assign_run]; rfl
          · rw [if_neg hurl, if_neg hurl]
            rfl

/-- One turn of the loop, with a file of these fields. -/
theorem setProperty_eq : setProperty host call (.obj fields) p s =
    match call.valueIn host fields p with
    | some v => (s.assign p.1 (.json v), some (.obj (Assoc.erase fields p.1)))
    | none => (s.spoil p.1 (call.spoiledIn host fields p), none) := by
  unfold setProperty Call.valueIn Call.spoiledIn
  dsimp only
  cases henv : call.variable host p.1 with
  | some text =>
      cases hparse : parse host p.2.type text with
      | none => simp only [bind_run, ofOption_run, hparse]; rfl
      | some v => simp only [bind_run, ofOption_run, hparse, assign_run]; rfl
  | none =>
      simp only [bind_run, ofOption_run, contains_obj]
      cases hget : Assoc.get fields (.str p.1) with
      | some value =>
          simp only [Option.isSome_some, if_true]
          cases htype : p.2.type with
          | none => simp [bind_run, Process.spoil]
          | some type =>
              by_cases hobject : type = "object"
              · subst hobject
                simp only [bind_run, ofOption_run, if_true, Option.bind_some]
                exact merge_eq hget
              · simp [bind_run, hobject, pop_obj hget]
      | none =>
          have herase := erase_of_get_none hget
          rw [herase]
          simp only [Option.isSome_none, Bool.false_eq_true, if_false]
          exact setOtherwise_eq

/-! ### Files that hold no mapping -/

/-- The fields of a mapping. -/
def mapping : Json → Option Json.Fields
  | .obj fields => some fields
  | _ => none

/-- The value of a key when the file holds something else: it must not come from the environment, nor be
found in the file. -/
def Call.valueBeside (call : Call) (host : Host) (other : Json) (p : String × Property) : Option Json :=
  match call.variable host p.1 with
  | some _ => none
  | none =>
      if contains p.1 other = some false then call.otherwise p else none

/-- What such a key is left with. -/
def Call.spoiledBeside (call : Call) (host : Host) (other : Json) (p : String × Property) :
    Option Json :=
  match call.variable host p.1 with
  | some text => parse host p.2.type text
  | none => if contains p.1 other = some true ∧ p.2.type = some "object" then p.2.default else none

/-- The value that the sources give to a key; `none` where this raises. -/
def Call.valueOf (call : Call) (host : Host) (overrides : Json) (p : String × Property) : Option Json :=
  match mapping overrides with
  | some fields => call.valueIn host fields p
  | none => call.valueBeside host overrides p

/-- What a key is left with, if with anything, when its value raises. -/
def Call.spoiledOf (call : Call) (host : Host) (overrides : Json) (p : String × Property) : Option Json :=
  match mapping overrides with
  | some fields => call.spoiledIn host fields p
  | none => call.spoiledBeside host overrides p

/-- The overrides without a key. -/
def rest (key : String) (overrides : Json) : Json :=
  match mapping overrides with
  | some fields => .obj (Assoc.erase fields key)
  | none => overrides

theorem setProperty_beside {other : Json} (hother : mapping other = none) :
    setProperty host call other p s =
      match call.valueBeside host other p with
      | some v => (s.assign p.1 (.json v), some other)
      | none => (s.spoil p.1 (call.spoiledBeside host other p), none) := by
  have hpop : pop p.1 other = none := by cases other <;> first | rfl | cases hother
  have hdrop : drop p.1 other = none := by cases other <;> first | rfl | cases hother
  unfold setProperty Call.valueBeside Call.spoiledBeside
  dsimp only
  cases henv : call.variable host p.1 with
  | some text =>
      cases hparse : parse host p.2.type text with
      | none => simp only [bind_run, ofOption_run, hparse]; rfl
      | some v => simp only [bind_run, ofOption_run, hparse, assign_run, hdrop]; rfl
  | none =>
      simp only [bind_run, ofOption_run]
      cases hcontains : contains p.1 other with
      | none => simp [Process.spoil]
      | some found =>
          cases found with
          | true =>
              simp only [if_true]
              cases htype : p.2.type with
              | none => simp [bind_run, Process.spoil]
              | some type =>
                  by_cases hobject : type = "object"
                  · subst hobject
                    unfold merge
                    cases hdefault : p.2.default with
                    | none => simp [bind_run, Process.spoil]
                    | some default =>
                        cases default with
                        | obj defaults => simp [bind_run, hpop, Process.spoil]
                        | null | bool _ | num _ | str _ | arr _ => simp [bind_run, Process.spoil]
                  · simp [bind_run, hobject, hpop, Process.spoil]
          | false =>
              simp only [Bool.false_eq_true, if_false, if_true]
              refine setOtherwise_eq.trans ?_
              cases call.otherwise p with
              | none => simp [Process.spoil]
              | some value => rfl

/-! ### The loop -/

/-- One turn of the loop. -/
theorem setProperty_run (overrides : Json) : setProperty host call overrides p s =
    match call.valueOf host overrides p with
    | some v => (s.assign p.1 (.json v), some (rest p.1 overrides))
    | none => (s.spoil p.1 (call.spoiledOf host overrides p), none) := by
  unfold Call.valueOf Call.spoiledOf rest
  cases hmapping : mapping overrides with
  | none => exact setProperty_beside hmapping
  | some fields =>
      have hobj : overrides = .obj fields := by
        cases overrides <;> first | cases hmapping; rfl | cases hmapping
      rw [hobj]
      exact setProperty_eq

theorem mapping_rest (key : String) (overrides : Json) :
    mapping (rest key overrides) =
      (mapping overrides).map fun fields => Assoc.erase fields (HashKey.str key) := by
  unfold rest
  cases hmapping : mapping overrides with
  | none => exact hmapping
  | some fields => rfl

/-- What is taken out for one key is no source of another. -/
theorem valueOf_rest {q : String × Property} (h : q.1 ≠ p.1) (overrides : Json) :
    call.valueOf host (rest p.1 overrides) q = call.valueOf host overrides q := by
  have hne : HashKey.str q.1 ≠ HashKey.str p.1 := fun heq => h (HashKey.str.inj heq)
  unfold Call.valueOf
  rw [mapping_rest]
  unfold rest
  cases mapping overrides with
  | none => rfl
  | some fields =>
      show call.valueIn host _ q = _
      unfold Call.valueIn
      rw [Assoc.get_erase_ne hne]

theorem spoiledOf_rest {q : String × Property} (h : q.1 ≠ p.1) (overrides : Json) :
    call.spoiledOf host (rest p.1 overrides) q = call.spoiledOf host overrides q := by
  have hne : HashKey.str q.1 ≠ HashKey.str p.1 := fun heq => h (HashKey.str.inj heq)
  unfold Call.spoiledOf
  rw [mapping_rest]
  unfold rest
  cases mapping overrides with
  | none => rfl
  | some fields =>
      show call.spoiledIn host _ q = _
      unfold Call.spoiledIn
      rw [Assoc.get_erase_ne hne]

/-- The values of the properties are put into `state`. -/
def putAll (value : String × Property → Option Json) (props : List (String × Property)) (s : Process) :
    Process :=
  props.foldl (fun s p => match value p with
    | some v => s.assign p.1 (.json v)
    | none => s) s

/-- The properties before the first one without a value. -/
def givenBefore (value : String × Property → Option Json) (props : List (String × Property)) :
    List (String × Property) :=
  props.takeWhile fun p => (value p).isSome

/-- The first property without a value. -/
def firstMissing (value : String × Property → Option Json) (props : List (String × Property)) :
    Option (String × Property) :=
  props.find? fun p => (value p).isNone

/-- The overrides without the keys of the properties. -/
def restAll (props : List (String × Property)) (overrides : Json) : Json :=
  props.foldl (fun overrides p => rest p.1 overrides) overrides

section Congr

variable {value value' : String × Property → Option Json} {props : List (String × Property)}

theorem putAll_congr (h : ∀ p ∈ props, value p = value' p) (s : Process) :
    putAll value props s = putAll value' props s :=
  List.foldl_ext _ _ _ fun _ p hp => by rw [h p hp]

theorem givenBefore_congr (h : ∀ p ∈ props, value p = value' p) :
    givenBefore value props = givenBefore value' props := by
  unfold givenBefore
  induction props with
  | nil => rfl
  | cons p props ih =>
      obtain ⟨hp, hprops⟩ := List.forall_mem_cons.mp h
      rw [List.takeWhile_cons, List.takeWhile_cons, hp, ih hprops]

theorem firstMissing_congr (h : ∀ p ∈ props, value p = value' p) :
    firstMissing value props = firstMissing value' props :=
  List.find?_congr fun p hp => by rw [h p hp]

end Congr

/-- The whole loop: all values are put into `state`, or those before the first one that is missing. -/
theorem setProperties_eq {props : List (String × Property)} (hnodup : (props.map Prod.fst).Nodup)
    (overrides : Json) (s : Process) : props.foldlM (setProperty host call) overrides s =
      match firstMissing (call.valueOf host overrides) props with
      | none => (putAll (call.valueOf host overrides) props s, some (restAll props overrides))
      | some p => ((putAll (call.valueOf host overrides)
          (givenBefore (call.valueOf host overrides) props) s).spoil p.1
            (call.spoiledOf host overrides p), none) := by
  induction props generalizing overrides s with
  | nil => rfl
  | cons p props ih =>
      obtain ⟨hp, hnodup⟩ := List.nodup_cons.mp hnodup
      have hne : ∀ q ∈ props, q.1 ≠ p.1 := fun q hq heq => hp (heq ▸ List.mem_map_of_mem hq)
      have hvalue : ∀ q ∈ props, call.valueOf host (rest p.1 overrides) q = call.valueOf host overrides q :=
        fun q hq => valueOf_rest (hne q hq) overrides
      rw [List.foldlM_cons, bind_run, setProperty_run]
      unfold firstMissing givenBefore
      rw [List.find?_cons, List.takeWhile_cons]
      cases hv : call.valueOf host overrides p with
      | none => rfl
      | some v =>
          show props.foldlM (setProperty host call) (rest p.1 overrides) (s.assign p.1 (.json v)) = _
          rw [ih hnodup, firstMissing_congr hvalue, putAll_congr hvalue, givenBefore_congr hvalue]
          unfold firstMissing
          simp only [Option.isNone_some, Option.isSome_some, if_true]
          cases hfind : props.find? fun q => (call.valueOf host overrides q).isNone with
          | none =>
              unfold putAll
              rw [List.foldl_cons, hv]
              rfl
          | some q =>
              have hq := hne q (List.mem_of_find?_eq_some hfind)
              have hprefix : putAll (call.valueOf host (rest p.1 overrides))
                  (givenBefore (call.valueOf host overrides) props) (s.assign p.1 (.json v)) =
                  putAll (call.valueOf host overrides) (givenBefore (call.valueOf host overrides) props)
                    (s.assign p.1 (.json v)) :=
                putAll_congr (fun q hq => hvalue q (List.takeWhile_subset _ hq)) _
              simp only [spoiledOf_rest hq, hprefix]
              unfold putAll givenBefore
              rw [List.foldl_cons, hv]

section Values

variable {value : String × Property → Option Json} {props : List (String × Property)} {key : String}

@[simp] theorem Process.get_assign_self (s : Process) (key : String) (item : Item) :
    Assoc.get (s.assign key item).state key = some item := Assoc.get_set_self

theorem Process.get_assign_ne (s : Process) (item : Item) {key key' : String} (h : key' ≠ key) :
    Assoc.get (s.assign key item).state key' = Assoc.get s.state key' := Assoc.get_set_ne h

theorem get_putAll_of_not_mem (h : key ∉ props.map Prod.fst) (s : Process) :
    Assoc.get (putAll value props s).state key = Assoc.get s.state key := by
  unfold putAll
  induction props generalizing s with
  | nil => rfl
  | cons p props ih =>
      rw [List.map_cons, List.mem_cons, not_or] at h
      rw [List.foldl_cons, ih h.2]
      cases value p with
      | none => rfl
      | some v => exact s.get_assign_ne _ h.1

theorem get_putAll_of_mem (hnodup : (props.map Prod.fst).Nodup) (h : p ∈ props) {v : Json}
    (hv : value p = some v) (s : Process) :
    Assoc.get (putAll value props s).state p.1 = some (.json v) := by
  induction props generalizing s with
  | nil => cases h
  | cons q props ih =>
      obtain ⟨hq, hnodup⟩ := List.nodup_cons.mp hnodup
      obtain rfl | h := List.mem_cons.mp h
      · have hrest : putAll value (p :: props) s = putAll value props (s.assign p.1 (.json v)) := by
          unfold putAll
          rw [List.foldl_cons, hv]
        rw [hrest, get_putAll_of_not_mem hq]
        exact s.get_assign_self _ _
      · exact ih hnodup h _

/-- The loop writes to `state` only. -/
theorem putAll_config (props : List (String × Property)) (s : Process) :
    (putAll value props s).config = s.config ∧ (putAll value props s).aesSecret = s.aesSecret := by
  unfold putAll
  induction props generalizing s with
  | nil => exact ⟨rfl, rfl⟩
  | cons p props ih =>
      rw [List.foldl_cons, (ih _).1, (ih _).2]
      cases value p <;> exact ⟨rfl, rfl⟩

theorem firstMissing_eq_none :
    firstMissing value props = none ↔ ∀ p ∈ props, ∃ v, value p = some v := by
  unfold firstMissing
  rw [List.find?_eq_none]
  refine forall₂_congr fun p _ => ?_
  cases value p with
  | none => simp
  | some v => simp

end Values

/-- Nothing is left of the overrides when they are a mapping whose keys are all in the schema. -/
theorem restAll_falsy {props : List (String × Property)} {overrides : Json}
    (htruthy : overrides.truthy = true ∨ overrides = .obj [])
    (h : (restAll props overrides).truthy = false) :
    ∃ fields, overrides = .obj fields ∧ ∀ q ∈ fields, ∃ p ∈ props, q.1 = .str p.1 := by
  unfold restAll at h
  cases hmapping : mapping overrides with
  | none =>
      have hsame : props.foldl (fun overrides p => rest p.1 overrides) overrides = overrides := by
        refine List.foldlRecOn (motive := fun o => o = overrides) props
          (fun overrides p => rest p.1 overrides) rfl fun o ho p _ => ?_
        rw [ho]
        unfold rest
        rw [hmapping]
      rw [hsame] at h
      obtain htruthy | rfl := htruthy
      · rw [htruthy] at h
        cases h
      · cases hmapping
  | some fields =>
      have hobj : overrides = .obj fields := by
        cases overrides <;> first | cases hmapping; rfl | cases hmapping
      subst hobj
      refine ⟨fields, rfl, fun q hq => ?_⟩
      by_contra hnot
      have hleft : ∃ left : Json.Fields,
          props.foldl (fun overrides p => rest p.1 overrides) (.obj fields) = .obj left ∧ q ∈ left := by
        refine List.foldlRecOn (motive := fun o => ∃ left : Json.Fields, o = .obj left ∧ q ∈ left) props
          (fun overrides p => rest p.1 overrides) ⟨fields, rfl, hq⟩ fun o ho p hp => ?_
        obtain ⟨left, rfl, hmem⟩ := ho
        refine ⟨Assoc.erase left p.1, rfl, List.mem_filter.mpr ⟨hmem, decide_eq_true fun heq => ?_⟩⟩
        exact hnot ⟨p, hp, heq⟩
      obtain ⟨left, hleft, hmem⟩ := hleft
      rw [hleft] at h
      cases left with
      | nil => cases hmem
      | cons => cases h

/-! ### The special cases -/

/-- Nothing but the items under some keys is changed: no key is taken away, and if these are there none is
added. -/
structure Beside (keys : List String) (s s' : Process) : Prop where
  get : ∀ key ∉ keys, Assoc.get s'.state key = Assoc.get s.state key
  config : s'.config = s.config
  keys : (∀ key ∈ keys, key ∈ s.state.map Prod.fst) → s'.state.map Prod.fst = s.state.map Prod.fst
  grows : ∀ key ∈ s.state.map Prod.fst, key ∈ s'.state.map Prod.fst

section Frame

variable {keys : List String}

theorem Beside.refl (s : Process) : Beside keys s s :=
  ⟨fun _ _ => rfl, rfl, fun _ => rfl, fun _ h => h⟩

theorem Beside.trans (s₁ s₂ s₃ : Process) (h : Beside keys s₁ s₂) (h' : Beside keys s₂ s₃) :
    Beside keys s₁ s₃ where
  get key hkey := (h'.get key hkey).trans (h.get key hkey)
  config := h'.config.trans h.config
  keys hthere := (h'.keys (by rw [h.keys hthere]; exact hthere)).trans (h.keys hthere)
  grows key hkey := h'.grows key (h.grows key hkey)

theorem Beside.mono {keys' : List String} (hsub : ∀ key ∈ keys, key ∈ keys') (h : Beside keys s s') :
    Beside keys' s s' where
  get key hkey := h.get key fun hmem => hkey (hsub key hmem)
  config := h.config
  keys hthere := h.keys fun key hkey => hthere key (hsub key hkey)
  grows := h.grows

theorem Beside.of_assign {key : String} (hkey : key ∈ keys) (item : Item) (s : Process) :
    Beside keys s (s.assign key item) where
  get _ h := s.get_assign_ne item fun heq => h (heq ▸ hkey)
  config := rfl
  keys hthere := Assoc.keys_set (hthere key hkey)
  grows _ h := Assoc.mem_keys_set.mpr (Or.inr h)

theorem beside_assign {key : String} (hkey : key ∈ keys) (item : Item) :
    Keeps (Beside keys) (assign key item) := Beside.of_assign hkey item

theorem beside_adjust {key : String} (hkey : key ∈ keys) (f : Json → Option Json) :
    Keeps (Beside keys) (adjust key f) :=
  .bind Beside.trans (.read Beside.refl _) fun _ =>
    .bind Beside.trans (.ofOption Beside.refl _) fun _ => beside_assign hkey _

theorem beside_composeSecret (hkey : "secret_key" ∈ keys) : Keeps (Beside keys) composeSecret := by
  refine .bind Beside.trans (.read Beside.refl _) fun secret => ?_
  cases secret with
  | str text => exact .bind Beside.trans (.ofOption Beside.refl _) fun _ => beside_assign hkey _
  | null | bool _ | num _ | arr _ | obj _ => exact .raise Beside.refl

theorem beside_composeMetric (hkey : "metrics" ∈ keys) (p : HashKey × Json) :
    Keeps (Beside keys) (composeMetric p) := by
  unfold composeMetric
  cases p.2 with
  | obj item =>
      dsimp only
      split_ifs
      · exact beside_adjust hkey _
      · exact .raise Beside.refl
  | null | bool _ | num _ | str _ | arr _ => exact .raise Beside.refl

theorem beside_composeMetrics (hkey : "metrics" ∈ keys) : Keeps (Beside keys) composeMetrics := by
  refine .bind Beside.trans (.read Beside.refl _) fun metrics => ?_
  cases metrics with
  | obj metrics =>
      show Keeps (Beside keys) (metrics.forM composeMetric)
      induction metrics with
      | nil => exact .pure Beside.refl ()
      | cons p metrics ih => exact .bind Beside.trans (beside_composeMetric hkey p) fun _ => ih
  | null | bool _ | num _ | str _ | arr _ => exact .raise Beside.refl

theorem beside_composeLimits
    (hkeys : call.environ "APP_ENV" ≠ some "prod" →
      "login_admin_limit" ∈ keys ∧ "login_session_limit" ∈ keys) :
    Keeps (Beside keys) (composeLimits call) := by
  unfold composeLimits
  split_ifs with henv
  · refine .bind Beside.trans (beside_adjust (hkeys henv).1 _) fun _ => ?_
    refine .bind Beside.trans (.read Beside.refl _) fun _ => ?_
    exact .bind Beside.trans (.ofOption Beside.refl _) fun _ => beside_assign (hkeys henv).2 _
  · exact .pure Beside.refl ()

theorem beside_composePaths
    (hkeys : "rbac_file" ∈ keys ∧ "db_migrations" ∈ keys ∧ "db_seed_file" ∈ keys) :
    Keeps (Beside keys) (composePaths host call) := by
  unfold composePaths
  cases call.file with
  | none => exact .pure Beside.refl ()
  | some file =>
      dsimp only
      split_ifs
      · exact .pure Beside.refl ()
      · refine .bind Beside.trans (beside_adjust hkeys.1 _) fun _ => ?_
        exact .bind Beside.trans (beside_adjust hkeys.2.1 _) fun _ => beside_adjust hkeys.2.2 _

end Frame

/-- The keys whose values are worked on. -/
def documented (call : Call) : List String :=
  ["metrics", "log_level", "template_folders", "babel_translation_directories", "rbac_file",
    "db_migrations", "db_seed_file"] ++
  if call.environ "APP_ENV" ≠ some "prod" then ["login_admin_limit", "login_session_limit"] else []

/-- What `state` has of its own. -/
def reserved : List String := ["secret_key", "schema", "models"]

theorem beside_specialValues : Keeps (Beside (documented call)) (specialValues host call) := by
  have hlimits : call.environ "APP_ENV" ≠ some "prod" →
      "login_admin_limit" ∈ documented call ∧ "login_session_limit" ∈ documented call := by
    intro henv
    unfold documented
    rw [if_pos henv]
    exact ⟨by simp, by simp⟩
  have hfixed : ∀ key ∈ ["metrics", "log_level", "template_folders", "babel_translation_directories",
      "rbac_file", "db_migrations", "db_seed_file"], key ∈ documented call :=
    fun key hkey => List.mem_append_left _ hkey
  unfold specialValues
  refine .bind Beside.trans (beside_composeMetrics (hfixed _ (by simp))) fun _ => ?_
  refine .bind Beside.trans (beside_adjust (hfixed _ (by simp)) _) fun _ => ?_
  refine .bind Beside.trans (beside_adjust (hfixed _ (by simp)) _) fun _ => ?_
  refine .bind Beside.trans (beside_composeLimits hlimits) fun _ => ?_
  refine .bind Beside.trans (beside_adjust (hfixed _ (by simp)) _) fun _ => ?_
  exact beside_composePaths ⟨hfixed _ (by simp), hfixed _ (by simp), hfixed _ (by simp)⟩

theorem beside_specialCases :
    Keeps (Beside ("secret_key" :: documented call)) (specialCases host call) :=
  .bind Beside.trans (beside_composeSecret List.mem_cons_self) fun _ s =>
    (beside_specialValues s).mono fun _ hkey => List.mem_cons_of_mem _ hkey

/-! ### The configuration -/

/-- A field of the configuration is the item under its key. -/
theorem get_namedtuple {state config : Settings} (h : namedtuple host state = some config) {key : String}
    {item : Item} (hget : Assoc.get state key = some item) :
    Assoc.get config (host.upper key) = some item := by
  unfold namedtuple at h
  split_ifs at h with hfields
  cases h
  have hnodup := hfields.1
  clear hfields
  induction state with
  | nil => cases hget
  | cons p state ih =>
      obtain ⟨hp, hnodup⟩ := List.nodup_cons.mp hnodup
      rw [Assoc.get_cons] at hget
      rw [List.map_cons, Assoc.get_cons]
      by_cases hkey : p.1 = key
      · rw [if_pos hkey] at hget
        rw [if_pos (congrArg host.upper hkey)]
        exact hget
      · rw [if_neg hkey] at hget
        have hmem : key ∈ state.map Prod.fst := by
          by_contra hnot
          rw [Assoc.get_eq_none.mpr hnot] at hget
          cases hget
        have hne : host.upper p.1 ≠ host.upper key := by
          intro heq
          obtain ⟨q, hq, rfl⟩ := List.mem_map.mp hmem
          exact hp (List.mem_map.mpr ⟨q, hq, heq.symm⟩)
        rw [if_neg hne]
        exact ih hget hnodup

theorem get_core {state : Settings} {key : String} (hschema : key ≠ "schema") (hmodels : key ≠ "models") :
    Assoc.get (core state) key = Assoc.get state key := by
  unfold core
  rw [Assoc.get_erase_ne hmodels, Assoc.get_erase_ne hschema]

/-- What is published. -/
theorem publish_some {schema : Schema} (h : publish host schema s = (s', some ())) :
    ∃ config, namedtuple host (core s.state) = some config ∧
      s' = { s with
        state := Assoc.set (core s.state) "schema" (.schema schema.properties), config := some config } := by
  unfold publish at h
  obtain ⟨_, _, hcore, h⟩ := bind_eq_some.mp h
  cases hcore
  obtain ⟨_, config, hconfig, h⟩ := bind_eq_some.mp h
  rw [read_run, Prod.mk.injEq] at hconfig
  obtain ⟨rfl, hconfig⟩ := hconfig
  obtain ⟨_, _, hchange, h⟩ := bind_eq_some.mp h
  cases hchange
  cases h
  exact ⟨config, hconfig, rfl⟩

/-- What the constructor does at its end. -/
theorem finish_some {config : Settings} (h : finish call s = (s', some config)) :
    s.config = some config ∧ s'.config = s.config ∧
      ∀ key, key ≠ "models" → Assoc.get s'.state key = Assoc.get s.state key := by
  unfold finish at h
  obtain ⟨_, config', hconfig, h⟩ := bind_eq_some.mp h
  rw [read_run, Prod.mk.injEq] at hconfig
  obtain ⟨rfl, hconfig⟩ := hconfig
  obtain ⟨_, secret, hsecret, h⟩ := bind_eq_some.mp h
  rw [ofOption_run, Prod.mk.injEq] at hsecret
  obtain ⟨rfl, _⟩ := hsecret
  obtain ⟨_, _, hchange, h⟩ := bind_eq_some.mp h
  cases hchange
  by_cases hmodels : call.models = true
  · rw [if_pos hmodels] at h
    cases h
    exact ⟨hconfig, rfl, fun key hkey => Assoc.get_set_ne hkey⟩
  · rw [if_neg hmodels] at h
    cases h
    exact ⟨hconfig, rfl, fun key _ => rfl⟩

/-- The fields of the file. -/
def Call.fileFields (call : Call) : Json.Fields := ((overrides call).bind mapping).getD []

/-- The values of the schema's keys are those that their sources give, in their order: the environment, the
file, the keyword arguments, the schema; and the keys of the file are keys of the schema. -/
def Follows (exceptions : List String) (host : Host) (call : Call) (schema : Schema) (s : Process)
    (config : Settings) : Prop :=
  (∀ p ∈ schema.properties, p.1 ∉ exceptions → ∃ v, call.valueIn host call.fileFields p = some v ∧
    Assoc.get config (host.upper p.1) = some (.json v) ∧
    Assoc.get (init host call schema s).1.state p.1 = some (.json v)) ∧
  ∀ path content, call.file = some (path, some content) → path ≠ "" →
    ∃ fields, content = .obj fields ∧ ∀ q ∈ fields, ∃ p ∈ schema.properties, q.1 = .str p.1

/-- The values that a successful call has loaded. -/
theorem load_some {schema : Schema} (h : load host call schema s = (s', some ())) :
    ∃ fields, overrides call = some (.obj fields) ∧
      (∀ q ∈ fields, ∃ p ∈ schema.properties, q.1 = .str p.1) ∧
      ∀ p ∈ schema.properties, ∃ v, call.valueIn host fields p = some v ∧
        Assoc.get s'.state p.1 = some (.json v) := by
  unfold load at h
  obtain ⟨_, given, hgiven, h⟩ := bind_eq_some.mp h
  rw [ofOption_run, Prod.mk.injEq] at hgiven
  obtain ⟨rfl, hgiven⟩ := hgiven
  obtain ⟨s₁, left, hloop, h⟩ := bind_eq_some.mp h
  obtain ⟨s₂, _, hvalid, h⟩ := bind_eq_some.mp h
  have hs₂ : s₁ = s₂ := congrArg Prod.fst hvalid
  have hs' : s₂ = s' := congrArg Prod.fst h
  subst hs₂ hs'
  have hleft : left.truthy = false := by
    by_contra htrue
    rw [Bool.not_eq_false] at htrue
    rw [ensure_run, htrue] at h
    cases h
  unfold setProperties at hloop
  rw [setProperties_eq schema.nodup] at hloop
  cases hmissing : firstMissing (call.valueOf host given) schema.properties with
  | some p =>
      rw [hmissing] at hloop
      cases hloop
  | none =>
      rw [hmissing] at hloop
      cases hloop
      have htruthy : given.truthy = true ∨ given = .obj [] := by
        unfold overrides at hgiven
        cases hfile : call.file with
        | none =>
            rw [hfile] at hgiven
            cases hgiven
            exact Or.inr rfl
        | some file =>
            rw [hfile] at hgiven
            simp only at hgiven
            split_ifs at hgiven with hpath
            · cases hgiven
              exact Or.inr rfl
            · exact Or.inl (Option.filter_eq_some_iff.mp hgiven).2
      obtain ⟨fields, rfl, hkeys⟩ := restAll_falsy htruthy hleft
      refine ⟨fields, hgiven, hkeys, fun p hp => ?_⟩
      obtain ⟨v, hv⟩ := firstMissing_eq_none.mp hmissing p hp
      exact ⟨v, hv, get_putAll_of_mem schema.nodup hp hv s⟩

/-- Whatever calls were made before, a configuration that is loaded follows the sources of all keys but the
documented special cases and the entries that `state` has of its own. -/
theorem precedence {schema : Schema} {config : Settings} (hreset : call.reset = true)
    (h : (init host call schema s).2 = some config) :
    Follows (documented call ++ reserved) host call schema s config := by
  unfold Follows
  have hrun : init host call schema s = ((init host call schema s).1, some config) := by rw [← h]
  generalize (init host call schema s).1 = s' at hrun ⊢
  have hloads : call.Loads s := Or.inl hreset
  unfold init at hrun
  rw [if_pos hloads] at hrun
  obtain ⟨s₁, _, hload, hrun⟩ := bind_eq_some.mp hrun
  obtain ⟨s₂, _, hspecial, hrun⟩ := bind_eq_some.mp hrun
  obtain ⟨s₃, _, hpublish, hfinish⟩ := bind_eq_some.mp hrun
  obtain ⟨fields, hgiven, hkeys, hvalues⟩ := load_some hload
  have hbeside : Beside ("secret_key" :: documented call) s₁ s₂ := by
    have hkeeps := @beside_specialCases host call s₁
    rwa [hspecial] at hkeeps
  obtain ⟨published, hnames, rfl⟩ := publish_some hpublish
  obtain ⟨hconfig, -, hstate⟩ := finish_some hfinish
  cases hconfig
  have hfields : call.fileFields = fields := by
    unfold Call.fileFields
    rw [hgiven]
    rfl
  refine ⟨fun p hp hexcept => ?_, fun path content hfile hpath => ?_⟩
  · rw [List.mem_append, not_or] at hexcept
    obtain ⟨hdocumented, hreserved⟩ := hexcept
    have hsecret : p.1 ≠ "secret_key" := fun heq => hreserved (by rw [heq]; decide)
    have hschema : p.1 ≠ "schema" := fun heq => hreserved (by rw [heq]; decide)
    have hmodels : p.1 ≠ "models" := fun heq => hreserved (by rw [heq]; decide)
    obtain ⟨v, hv, hget⟩ := hvalues p hp
    have hlast : Assoc.get s₂.state p.1 = some (.json v) :=
      (hbeside.get p.1 (by simp [hsecret, hdocumented])).trans hget
    have hcore : Assoc.get (core s₂.state) p.1 = some (.json v) := (get_core hschema hmodels).trans hlast
    refine ⟨v, by rw [hfields]; exact hv, get_namedtuple hnames hcore, ?_⟩
    rw [hstate p.1 hmodels]
    exact (Assoc.get_set_ne hschema).trans hcore
  · unfold overrides at hgiven
    rw [hfile] at hgiven
    simp only [if_neg hpath] at hgiven
    obtain ⟨hcontent, _⟩ := Option.filter_eq_some_iff.mp hgiven
    cases hcontent
    exact ⟨fields, rfl, hkeys⟩

/-! ### A schema with a key named like an entry of `state` -/

/-- A host whose names are all in upper case, and may all be fields. -/
def sampleHost : Host where
  upper s := String.ofList (s.toList.map Char.toUpper)
  upper_secret := by decide +kernel
  lower s := String.ofList (s.toList.map Char.toLower)
  isField _ := true
  abspath path := path
  here := "/app/apicrud"

/-- A property with a default text. -/
def textProperty (key value : String) : String × Property :=
  (key, { type := some "string", default := some (.str value) })

/-- The properties that the constructor itself needs. -/
def neededProperties : List (String × Property) :=
  [textProperty "babel_translation_directories" "i18n", textProperty "db_aes_secret" "aes",
    textProperty "flask_secret_key" "beef",
    ("login_admin_limit", { type := some "integer", default := some (.num 900) }),
    ("login_session_limit", { type := some "integer", default := some (.num 14400) }),
    textProperty "log_level" "info",
    ("metrics", { type := some "object", default := some (.obj []) }),
    ("template_folders", { type := some "array", default := some (.arr []) })]

/-- A schema of a name, a secret and what is needed. -/
def secretSchema : Schema where
  properties := textProperty "appname" "Example" :: textProperty "secret_key" "abc" :: neededProperties
  nodup := by decide
  validates _ := true

/-- A first call, without a file. -/
def bareCall : Call where
  environ _ := none
  reset := true
  kwargs := [("appname", .str "Test")]

/-- The text of an item. -/
def Item.text : Item → Option String
  | .json (.str s) => some s
  | _ => none

theorem bareCall_ok : (init sampleHost bareCall secretSchema {}).2.isSome = true := by decide +kernel

/-- The name is the one of the keyword arguments. -/
theorem bareCall_follows : Follows (documented bareCall ++ reserved) sampleHost bareCall secretSchema {}
    ((init sampleHost bareCall secretSchema {}).2.get bareCall_ok) :=
  precedence rfl (Option.some_get bareCall_ok).symm

/-- The secret is not the default that the schema gives. -/
theorem secret_overwritten : ¬ Follows (documented bareCall) sampleHost bareCall secretSchema {}
    ((init sampleHost bareCall secretSchema {}).2.get bareCall_ok) := by
  rintro ⟨hvalues, -⟩
  obtain ⟨v, hv, hconfig, -⟩ := hvalues (textProperty "secret_key" "abc")
    (List.mem_cons_of_mem _ List.mem_cons_self) (by decide +kernel)
  have hdefault : bareCall.valueIn sampleHost bareCall.fileFields (textProperty "secret_key" "abc") =
      some (.str "abc") := rfl
  rw [hdefault] at hv
  cases hv
  have htext := congrArg (fun item => item.bind Item.text) hconfig
  exact absurd htext (by decide +kernel)

end ServiceConfig

end Apicrud
