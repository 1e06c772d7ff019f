import Apicrud.AesEncrypt
import Apicrud.Json
import Apicrud.Text

/-! # Discovery of services

Each instance of a service stores an encrypted registration in redis, under the key `reg:<name>:<id>`.
`ServiceRegistry.find` scans these keys: what does not decrypt to a JSON object is left out, the others are
the instances, and the first of them that serves a resource gives the URL of that resource.

`find_order` says what this gives for every order of the scan, when all that decrypts to an object is a
registration as `register` writes it. -/

namespace Apicrud

/-- An entry of the registry. -/
structure RegistryEntry where
  name : String
  id : String
  name_plain : ':' ∉ name.toList
  id_plain : ':' ∉ id.toList
  /-- what redis gives for the key: nothing, when it is gone since it was scanned -/
  value : Option (List Char)

/-- `'reg:%s:%s' % (name, id)` -/
def RegistryEntry.key (e : RegistryEntry) : String := "reg:" ++ e.name ++ ":" ++ e.id

/-- None of the characters with a meaning in redis's patterns. -/
def Literal (s : String) : Prop := ∀ c ∈ s.toList, c ∉ ['*', '?', '[', ']', '\\']

/-- The entries in redis, in the order in which they are scanned. -/
structure RegistryScan where
  entries : List RegistryEntry
  /-- a pattern and a key, as redis compares them -/
  matching : String → String → Bool
  matching_literal : ∀ start key, Literal start →
    (matching (start ++ "*") key = true ↔ start.toList <+: key.toList)

/-- `self.redis_conn.scan_iter(match=pattern)` -/
def RegistryScan.scanIter (scan : RegistryScan) (pattern : String) : List RegistryEntry :=
  scan.entries.filter fun e => scan.matching pattern e.key

/-- The same entries, scanned in another order or some of them. -/
def RegistryScan.withEntries (scan : RegistryScan) (entries : List RegistryEntry) : RegistryScan :=
  { scan with entries := entries }

/-- The URLs of the resources. -/
abbrev UrlMap := HashKey → Option String

/-- What `find` returns. -/
structure Discovered where
  instances : List Json.Fields
  urlMap : UrlMap

/-- What the registry works with. -/
structure ServiceRegistry where
  crypt : Cryptodome
  aes : AESEncrypt
  /-- `json.loads`; `none` where it raises -/
  loads : List UInt8 → Option Json
  /-- `json.dumps` -/
  dumps : Json → String
  /-- `config.BASE_URL` -/
  baseUrl : String

namespace ServiceRegistry

variable (R : ServiceRegistry)

/-- What `register` is called with, and finds out. -/
structure Registration where
  endpoints : List String
  ipv4 : Option String
  port : ℤ
  publicUrl : String
  created : String

/-- `service_data['info']` -/
def Registration.info (r : Registration) : Json.Fields :=
  [("endpoints", .arr (r.endpoints.map .str)), ("ipv4", (r.ipv4.map Json.str).getD .null),
    ("port", .num r.port), ("public_url", .str r.publicUrl), ("created", .str r.created)]

/-- The value that `_save_entry` stores, with the initialization vector that is drawn; `none` where this
raises. -/
def saved (iv : InitVector) (r : Registration) : Option (List Char) :=
  R.aes.encrypt R.crypt iv (R.dumps (.obj r.info))

/-- `json.loads(params['aes'].decrypt(self.redis_conn.get(instance)))`; `none` where it raises. -/
def opened (e : RegistryEntry) : Option Json :=
  e.value.bind fun value => (R.aes.decrypt R.crypt value).bind R.loads

/-- `name, id = instance.decode().split(':')[1:]`; `none` where it raises. -/
def nameAndId (key : String) : Option (String × String) :=
  match (Text.split key ':').tail with
  | [name, id] => some (name, id)
  | _ => none

/-- The `try` of `find`: what is appended to the instances; `none` where it goes on to the next one. -/
def readInstance (e : RegistryEntry) : Option Json.Fields :=
  match R.opened e with
  | some (.obj info) => (nameAndId e.key).map fun p =>
      Assoc.set (Assoc.set info "name" (.str p.1)) "id" (.str p.2)
  | _ => none

/-- `info['public_url'] + base_url`; `none` where it raises. -/
def urlOf (info : Json.Fields) : Option String :=
  match Assoc.get info "public_url" with
  | some (.str url) => some (url ++ R.baseUrl)
  | _ => none

/-- One resource of an instance; `none` where it raises.  A second URL is compared only to write a
warning. -/
def addResource (info : Json.Fields) (urlMap : UrlMap) (resource : Json) : Option UrlMap :=
  match resource.hashKey with
  | none => none
  | some key =>
      match urlMap key with
      | none => (R.urlOf info).map fun url => Function.update urlMap key (some url)
      | some _ => if key = .str "metric" then some urlMap else (R.urlOf info).map fun _ => urlMap

/-- The resources of an instance. -/
def addEndpoints (info : Json.Fields) (urlMap : UrlMap) : Option UrlMap :=
  let endpoints := (Assoc.get info "endpoints").getD .null
  if endpoints.truthy then endpoints.items.bind fun resources => resources.foldlM (R.addResource info) urlMap
  else some urlMap

/-- One turn of the loop. -/
def visit (found : Discovered) (e : RegistryEntry) : Option Discovered :=
  match R.readInstance e with
  | none => some found
  | some info => (R.addEndpoints info found.urlMap).map fun urlMap => ⟨found.instances ++ [info], urlMap⟩

/-- `'reg:%s:*' % service_name if service_name else 'reg:*'` -/
def pattern (service_name : Option String) : String :=
  if service_name.getD "" ≠ "" then "reg:" ++ service_name.getD "" ++ ":*" else "reg:*"

/-- `find`; `none` where it raises. -/
def find (scan : RegistryScan) (service_name : Option String) : Option Discovered :=
  (scan.scanIter (pattern service_name)).foldlM R.visit ⟨[], fun _ => none⟩

/-! ### What should be found -/

/-- The entry is of the service that is asked for, if one is. -/
def Selected (service_name : Option String) (e : RegistryEntry) : Prop :=
  service_name.getD "" = "" ∨ e.name = service_name.getD ""

instance (service_name : Option String) (e : RegistryEntry) : Decidable (Selected service_name e) :=
  inferInstanceAs (Decidable (_ ∨ _))

/-- The entries that `find` is about. -/
def selected (entries : List RegistryEntry) (service_name : Option String) : List RegistryEntry :=
  entries.filter fun e => decide (Selected service_name e)

/-- The resources that are registered. -/
def endpoints (info : Json.Fields) : List String :=
  match Assoc.get info "endpoints" with
  | some (.arr items) => items.filterMap fun item =>
      match item with
      | .str resource => some resource
      | _ => none
  | _ => []

/-- Something with a list of resources and a URL, as it is registered. -/
def IsRegistration (info : Json.Fields) : Prop :=
  (∃ resources : List String, Assoc.get info "endpoints" = some (.arr (resources.map .str))) ∧
    ∃ url : String, Assoc.get info "public_url" = some (.str url)

/-- The value does not decrypt, or not to a JSON object. -/
def Unreadable (e : RegistryEntry) : Prop := ∀ info, R.opened e ≠ some (.obj info)

/-- The value decrypts to a registration. -/
def Registers (e : RegistryEntry) : Prop := ∃ info, R.opened e = some (.obj info) ∧ IsRegistration info

/-- The registration with the name and the id of its entry. -/
def named (e : RegistryEntry) (info : Json.Fields) : Json.Fields :=
  Assoc.set (Assoc.set info "name" (.str e.name)) "id" (.str e.id)

/-- The instance that is registered in an entry. -/
def registered (e : RegistryEntry) : Option Json.Fields :=
  match R.opened e with
  | some (.obj info) => some (named e info)
  | _ => none

/-- An instance of the entries serves the resource at the URL. -/
def Serves (entries : List RegistryEntry) (resource url : String) : Prop :=
  ∃ info ∈ entries.filterMap R.registered, resource ∈ endpoints info ∧
    Assoc.get info "public_url" = some (.str url)

/-- All instances that serve the resource have one URL. -/
def OneUrl (entries : List RegistryEntry) (resource : String) : Prop :=
  ∀ url url', R.Serves entries resource url → R.Serves entries resource url' → url = url'

variable {R} {e : RegistryEntry} {info : Json.Fields}

/-! ### The keys -/

theorem split_key (e : RegistryEntry) : Text.split e.key ':' = ["reg", e.name, e.id] := by
  have hjoin : e.key = Text.join ["reg", e.name, e.id] ':' := by
    unfold RegistryEntry.key Text.join
    apply String.toList_inj.mp
    simp
  rw [hjoin]
  refine Text.split_join (by simp) fun part hpart => ?_
  simp only [List.mem_cons, List.not_mem_nil, or_false] at hpart
  obtain rfl | rfl | rfl := hpart
  · decide
  · exact e.name_plain
  · exact e.id_plain

/-- What is read is the registration with the name and the id of the key. -/
theorem readInstance_eq : R.readInstance e = R.registered e := by
  have hkey : nameAndId e.key = some (e.name, e.id) := by
    unfold nameAndId
    rw [split_key]
    rfl
  unfold readInstance registered
  rw [hkey]
  rfl

/-- A key has one colon behind the prefix, so it starts with a name and a colon just when that is its
name. -/
theorem name_eq_iff {name id n : List Char} (hname : ':' ∉ name) (hid : ':' ∉ id) :
    n ++ [':'] <+: name ++ ':' :: id ↔ name = n := by
  constructor
  · rintro ⟨t, ht⟩
    rw [List.append_assoc, List.singleton_append, List.append_eq_append_iff] at ht
    obtain ⟨between, hmore, hrest⟩ | ⟨between, hmore, hrest⟩ := ht
    · cases between with
      | nil => rw [hmore, List.append_nil]
      | cons c between =>
          have hc : ':' = c := (List.cons.inj hrest).1
          exact absurd (by rw [hmore, hc]; simp) hname
    · cases between with
      | nil => rw [hmore, List.append_nil]
      | cons c between =>
          have hrest : id = between ++ ':' :: t := (List.cons.inj hrest).2
          exact absurd (by rw [hrest]; simp) hid
  · rintro rfl
    exact ⟨id, by simp⟩

/-- The scan gives the entries of the service that is asked for. -/
theorem matching_iff {scan : RegistryScan} {service_name : Option String}
    (hname : Literal (service_name.getD "")) :
    scan.matching (pattern service_name) e.key = true ↔ Selected service_name e := by
  unfold pattern Selected
  by_cases hall : service_name.getD "" = ""
  · have hstart : ("reg:*" : String) = "reg:" ++ "*" := by decide
    rw [if_neg (not_not.mpr hall), hstart, scan.matching_literal _ _ (by simp [Literal])]
    refine iff_of_true ?_ (Or.inl hall)
    unfold RegistryEntry.key
    simp only [String.toList_append, List.append_assoc]
    exact List.prefix_append _ _
  · have hstart : "reg:" ++ service_name.getD "" ++ ":*" =
        ("reg:" ++ service_name.getD "" ++ ":") ++ "*" := by
      apply String.toList_inj.mp
      simp
    have hliteral : Literal ("reg:" ++ service_name.getD "" ++ ":") := by
      intro c hc
      simp only [String.toList_append, List.mem_append] at hc
      obtain (hc | hc) | hc := hc
      · revert c
        simp
      · exact hname c hc
      · revert c
        simp
    rw [if_pos hall, hstart, scan.matching_literal _ _ hliteral, or_iff_right hall,
      ← String.toList_inj, ← name_eq_iff e.name_plain e.id_plain]
    unfold RegistryEntry.key
    have hcolon : (":" : String).toList = [':'] := by decide
    simp only [String.toList_append, List.append_assoc, hcolon, List.prefix_append_right_inj,
      List.singleton_append]

theorem scanIter_eq {scan : RegistryScan} {service_name : Option String}
    (hname : Literal (service_name.getD "")) :
    scan.scanIter (pattern service_name) = selected scan.entries service_name := by
  refine List.filter_congr fun e _ => ?_
  rw [Bool.eq_iff_iff, matching_iff hname, decide_eq_true_eq]

/-! ### The loop -/

/-- What an instance offers for a resource. -/
def offer (R : ServiceRegistry) (info : Json.Fields) (key : HashKey) : Option String :=
  if key ∈ (endpoints info).map HashKey.str then R.urlOf info else none

/-- The first offer for each resource. -/
def firstUrls (R : ServiceRegistry) (l : List Json.Fields) : UrlMap :=
  fun key => l.findSome? fun info => R.offer info key

theorem endpoints_of {resources : List String}
    (h : Assoc.get info "endpoints" = some (.arr (resources.map .str))) : endpoints info = resources := by
  unfold endpoints
  rw [h]
  show (resources.map Json.str).filterMap _ = _
  rw [List.filterMap_map]
  exact List.filterMap_some

theorem urlOf_of {url : String} (h : Assoc.get info "public_url" = some (.str url)) :
    R.urlOf info = some (url ++ R.baseUrl) := by
  unfold urlOf
  rw [h]

/-- A resource is added with the URL of the instance, unless it is there. -/
theorem addResource_str {url : String} (hurl : R.urlOf info = some url) (urlMap : UrlMap)
    (resource : String) : R.addResource info urlMap (.str resource) =
      some fun key => (urlMap key).or (if key = .str resource then some url else none) := by
  have hkey : (Json.str resource).hashKey = some (.str resource) := rfl
  unfold addResource
  rw [hkey, hurl]
  simp only
  cases hthere : urlMap (.str resource) with
  | none =>
      simp only [Option.map_some, Option.some.injEq]
      funext key
      by_cases h : key = .str resource
      · rw [h, Function.update_self, hthere, Option.none_or, if_pos rfl]
      · rw [Function.update_of_ne h, if_neg h, Option.or_none]
  | some known =>
      have hsame : urlMap = fun key => (urlMap key).or (if key = .str resource then some url else none) := by
        funext key
        split_ifs with h
        · rw [h, hthere, Option.some_or]
        · rw [Option.or_none]
      simp only [Option.map_some, ite_self]
      rw [← hsame]

/-- All resources of an instance are added in this way. -/
theorem addResources {url : String} (hurl : R.urlOf info = some url) (urlMap : UrlMap)
    (resources : List String) : (resources.map Json.str).foldlM (R.addResource info) urlMap =
      some fun key => (urlMap key).or (if key ∈ resources.map HashKey.str then some url else none) := by
  induction resources generalizing urlMap with
  | nil => simp
  | cons resource resources ih =>
      rw [List.map_cons, List.foldlM_cons, addResource_str hurl, Option.bind_eq_bind, Option.bind_some, ih,
        Option.some.injEq]
      funext key
      rw [Option.or_assoc, List.map_cons]
      congr 1
      by_cases hfirst : key = .str resource
      · rw [if_pos hfirst, Option.some_or, if_pos (hfirst ▸ List.mem_cons_self)]
      · rw [if_neg hfirst, Option.none_or]
        simp only [List.mem_cons, hfirst, false_or]

theorem addEndpoints_eq (h : IsRegistration info) (urlMap : UrlMap) :
    R.addEndpoints info urlMap = some fun key => (urlMap key).or (R.offer info key) := by
  obtain ⟨⟨resources, hresources⟩, url, hurl⟩ := h
  have hoffer : ∀ key, R.offer info key =
      if key ∈ resources.map HashKey.str then some (url ++ R.baseUrl) else none := by
    intro key
    unfold offer
    rw [endpoints_of hresources, urlOf_of hurl]
  simp only [hoffer]
  rw [← addResources (urlOf_of hurl)]
  unfold addEndpoints
  rw [hresources, Option.getD_some]
  cases resources with
  | nil => rfl
  | cons resource resources => rfl

theorem IsRegistration.named (h : IsRegistration info) (e : RegistryEntry) :
    IsRegistration (named e info) := by
  have hget : ∀ key : HashKey, key ≠ "name" → key ≠ "id" →
      Assoc.get (ServiceRegistry.named e info) key = Assoc.get info key := by
    intro key hname hid
    unfold ServiceRegistry.named
    rw [Assoc.get_set_ne hid, Assoc.get_set_ne hname]
  unfold IsRegistration
  rw [hget _ (by decide) (by decide), hget _ (by decide) (by decide)]
  exact h

/-- An entry that does not disturb the loop: what it decrypts to, if that is an object, is a registration. -/
def Orderly (R : ServiceRegistry) (e : RegistryEntry) : Prop := R.Registers e ∨ R.Unreadable e

theorem registered_of_unreadable (h : R.Unreadable e) : R.registered e = none := by
  unfold registered
  split
  · rename_i info hopened
    exact absurd hopened (h info)
  · rfl

theorem registered_of (h : R.opened e = some (.obj info)) : R.registered e = some (named e info) := by
  unfold registered
  rw [h]

/-- The instances are registrations. -/
theorem isRegistration_of_registered (horderly : R.Orderly e) (h : R.registered e = some info) :
    IsRegistration info := by
  obtain ⟨stored, hopened, hreg⟩ | hnot := horderly
  · rw [registered_of hopened, Option.some.injEq] at h
    rw [← h]
    exact hreg.named e
  · rw [registered_of_unreadable hnot] at h
    cases h

/-- Nothing comes of an entry without a registration. -/
theorem visit_none (h : R.registered e = none) (found : Discovered) : R.visit found e = some found := by
  unfold visit
  rw [readInstance_eq, h]

theorem visit_some (h : R.registered e = some info) (hreg : IsRegistration info) (found : Discovered) :
    R.visit found e = some ⟨found.instances ++ [info],
      fun key => (found.urlMap key).or (R.offer info key)⟩ := by
  unfold visit
  rw [readInstance_eq, h]
  simp only [addEndpoints_eq hreg, Option.map_some]

/-- What the loop finds in orderly entries. -/
theorem visits_eq {l : List RegistryEntry} (h : ∀ e ∈ l, R.Orderly e) (found : Discovered) :
    l.foldlM R.visit found = some ⟨found.instances ++ l.filterMap R.registered,
      fun key => (found.urlMap key).or (R.firstUrls (l.filterMap R.registered) key)⟩ := by
  unfold firstUrls
  induction l generalizing found with
  | nil => simp
  | cons e l ih =>
      obtain ⟨hfirst, hrest⟩ := List.forall_mem_cons.mp h
      rw [List.foldlM_cons, Option.bind_eq_bind]
      cases hregistered : R.registered e with
      | none => rw [visit_none hregistered, Option.bind_some, ih hrest,
          List.filterMap_cons_none hregistered]
      | some info =>
          rw [visit_some hregistered (isRegistration_of_registered hfirst hregistered),
            Option.bind_some, ih hrest, List.filterMap_cons_some hregistered]
          simp only [List.append_assoc, List.singleton_append, Option.some.injEq, Discovered.mk.injEq,
            true_and]
          funext key
          rw [Option.or_assoc, List.findSome?_cons]
          cases R.offer info key <;> rfl

theorem find_eq {scan : RegistryScan} {service_name : Option String}
    (hname : Literal (service_name.getD "")) (horderly : ∀ e ∈ scan.entries, R.Orderly e) :
    R.find scan service_name =
      some ⟨(selected scan.entries service_name).filterMap R.registered,
        R.firstUrls ((selected scan.entries service_name).filterMap R.registered)⟩ := by
  have hselected : ∀ e ∈ selected scan.entries service_name, R.Orderly e :=
    fun e he => horderly e (List.mem_of_mem_filter he)
  unfold find
  rw [scanIter_eq hname, visits_eq hselected]
  simp

/-! ### The result -/

/-- What is found is what the entries register: the instances in some order, the resources that one of them
serves, and the URL of each resource with a single one. -/
structure Finds (R : ServiceRegistry) (entries : List RegistryEntry) (found : Discovered) : Prop where
  instances : found.instances.Perm (entries.filterMap R.registered)
  resources : ∀ key, (found.urlMap key).isSome = true ↔
    ∃ info ∈ entries.filterMap R.registered, ∃ resource ∈ endpoints info, key = .str resource
  urls : ∀ resource, R.OneUrl entries resource → ∀ url, found.urlMap (.str resource) = some url ↔
    ∃ served, R.Serves entries resource served ∧ url = served ++ R.baseUrl

/-- An offer is one of the resources of the instance, at its URL. -/
theorem offer_eq_some (h : IsRegistration info) {resource url : String} :
    R.offer info (.str resource) = some url ↔ resource ∈ endpoints info ∧
      ∃ served, Assoc.get info "public_url" = some (.str served) ∧ url = served ++ R.baseUrl := by
  obtain ⟨_, served, hserved⟩ := h
  have hmem : HashKey.str resource ∈ (endpoints info).map HashKey.str ↔ resource ∈ endpoints info := by
    simp
  unfold offer
  rw [urlOf_of hserved]
  split_ifs with hoffered
  · rw [Option.some.injEq]
    constructor
    · intro h
      exact ⟨hmem.mp hoffered, served, hserved, h.symm⟩
    · rintro ⟨_, served', hserved', rfl⟩
      rw [hserved, Option.some.injEq, Json.str.injEq] at hserved'
      rw [hserved']
  · exact iff_of_false (by simp) fun h => hoffered (hmem.mpr h.1)

theorem offer_isSome (h : IsRegistration info) {key : HashKey} :
    (R.offer info key).isSome = true ↔ ∃ resource ∈ endpoints info, key = .str resource := by
  obtain ⟨_, url, hurl⟩ := h
  unfold offer
  rw [urlOf_of hurl]
  split_ifs with hoffered
  · obtain ⟨resource, hresource, heq⟩ := List.mem_map.mp hoffered
    exact iff_of_true rfl ⟨resource, hresource, heq.symm⟩
  · refine iff_of_false (by simp) ?_
    rintro ⟨resource, hresource, rfl⟩
    exact hoffered (List.mem_map_of_mem hresource)

/-- The first offers of the instances, in whatever order these come. -/
theorem finds_of_perm {entries : List RegistryEntry} (horderly : ∀ e ∈ entries, R.Orderly e)
    {l : List Json.Fields} (hperm : l.Perm (entries.filterMap R.registered)) :
    R.Finds entries ⟨l, R.firstUrls l⟩ := by
  have hreg : ∀ info ∈ l, IsRegistration info := by
    intro info hinfo
    obtain ⟨e, he, heq⟩ := List.mem_filterMap.mp (hperm.mem_iff.mp hinfo)
    exact isRegistration_of_registered (horderly e he) heq
  have hoffers : ∀ {resource url : String},
      R.firstUrls l (.str resource) = some url →
        ∃ served, R.Serves entries resource served ∧ url = served ++ R.baseUrl := by
    intro resource url h
    obtain ⟨info, hinfo, hoffer⟩ := List.exists_of_findSome?_eq_some h
    obtain ⟨hmem, served, hserved, hurl⟩ := (offer_eq_some (hreg info hinfo)).mp hoffer
    exact ⟨served, ⟨info, hperm.mem_iff.mp hinfo, hmem, hserved⟩, hurl⟩
  have hresources : ∀ key, (R.firstUrls l key).isSome = true ↔
      ∃ info ∈ entries.filterMap R.registered, ∃ resource ∈ endpoints info, key = .str resource := by
    intro key
    unfold firstUrls
    rw [List.findSome?_isSome_iff]
    constructor
    · rintro ⟨info, hinfo, hoffer⟩
      exact ⟨info, hperm.mem_iff.mp hinfo, (offer_isSome (hreg info hinfo)).mp hoffer⟩
    · rintro ⟨info, hinfo, hserves⟩
      have hmem := hperm.mem_iff.mpr hinfo
      exact ⟨info, hmem, (offer_isSome (hreg info hmem)).mpr hserves⟩
  refine ⟨hperm, hresources, fun resource hone url => ⟨hoffers, ?_⟩⟩
  rintro ⟨served, hserves, rfl⟩
  obtain ⟨info, hinfo, hmem, _⟩ := id hserves
  obtain ⟨url, hurl⟩ := Option.isSome_iff_exists.mp
    ((hresources (.str resource)).mpr ⟨info, hinfo, resource, hmem, rfl⟩)
  obtain ⟨served', hserves', rfl⟩ := hoffers hurl
  rw [hone served served' hserves hserves']
  exact hurl

/-- Where each resource has a single URL, the map is determined by the entries. -/
theorem Finds.urlMap_eq {entries : List RegistryEntry} {found found' : Discovered}
    (h : R.Finds entries found) (h' : R.Finds entries found') (hone : ∀ resource, R.OneUrl entries resource) :
    found.urlMap = found'.urlMap := by
  funext key
  have hsame : (found.urlMap key).isSome = true ↔ (found'.urlMap key).isSome = true :=
    (h.resources key).trans (h'.resources key).symm
  cases hurl : found'.urlMap key with
  | none =>
      rw [hurl] at hsame
      exact Option.not_isSome_iff_eq_none.mp fun hsome => absurd (hsame.mp hsome) (by simp)
  | some url =>
      obtain ⟨info, _, resource, _, rfl⟩ := (h'.resources key).mp (by rw [hurl]; rfl)
      exact (h.urls resource (hone resource) url).mpr ((h'.urls resource (hone resource) url).mp hurl)

/-- What `_save_entry` stores is orderly, if it parses as what was written. -/
theorem saved_registers {iv : InitVector} {r : Registration}
    (hascii : ∀ c ∈ (R.dumps (.obj r.info)).toList, c.toNat < 128)
    (hloads : R.loads (Base64.utf8 (R.dumps (.obj r.info))) = some (.obj r.info))
    (hvalue : e.value = R.saved iv r) : R.opened e = some (.obj r.info) ∧ R.Orderly e := by
  obtain ⟨enc, henc, hdec⟩ := AESEncrypt.roundTrips_of_ascii R.crypt R.aes iv hascii
  have hopened : R.opened e = some (.obj r.info) := by
    unfold opened
    rw [hvalue]
    unfold saved
    rw [henc, Option.bind_some, hdec, Option.bind_some, hloads]
  have hreg : IsRegistration r.info := ⟨⟨r.endpoints, rfl⟩, r.publicUrl, rfl⟩
  exact ⟨hopened, Or.inl ⟨r.info, hopened, hreg⟩⟩

/-- What is left of a selection without the entries that register nothing. -/
theorem filterMap_readable (l : List RegistryEntry) (service_name : Option String) :
    (selected (l.filter fun e => (R.registered e).isSome) service_name).filterMap R.registered =
      (selected l service_name).filterMap R.registered := by
  unfold selected
  rw [List.filter_comm, List.filterMap_filter]
  refine List.filterMap_congr fun e _ => ?_
  cases hregistered : R.registered e with
  | none => simp
  | some info => simp

/-- A registration. -/
def accounts : Registration := ⟨["account", "person"], none, 8080, "http://localhost", "2021-01-21"⟩

/-- A parser and a writer that know this registration only. -/
def sample : ServiceRegistry where
  crypt := ⟨id, fun _ _ => Equiv.refl Blocks⟩
  aes := ⟨[]⟩
  loads text := if text = Base64.utf8 "accounts" then some (.obj accounts.info) else none
  dumps _ := "accounts"
  baseUrl := "/api/v1"

/-- The entry of the instance. -/
def ownEntry : RegistryEntry where
  name := "main"
  id := "1.1.1.1"
  name_plain := by decide
  id_plain := by decide
  value := sample.saved ⟨List.replicate 16 0, rfl⟩ accounts

/-- An entry that is gone when it is read. -/
def goneEntry : RegistryEntry where
  name := "main"
  id := "9.1.1.9"
  name_plain := by decide
  id_plain := by decide
  value := none

/-- Both entries, with patterns whose only special character is a last asterisk. -/
def bothEntries : RegistryScan where
  entries := [goneEntry, ownEntry]
  matching pattern key := pattern.toList.dropLast.isPrefixOf key.toList
  matching_literal start key _ := by simp

theorem ownEntry_registers :
    sample.opened ownEntry = some (.obj accounts.info) ∧ sample.Orderly ownEntry := by
  have hloads : sample.loads (Base64.utf8 "accounts") = some (.obj accounts.info) := by
    simp [sample]
  exact @saved_registers sample ownEntry ⟨List.replicate 16 0, rfl⟩ accounts (by simp [sample])
    hloads rfl

end ServiceRegistry

end Apicrud
