import Apicrud.Controllers

/-! # What the checks leave of a body

A body passes through conversions on its way to a row: keys are added, dropped and normalized.
For every method the lemmas here say which keys stay as the client sent them (`AgreeOff`), and what
the others become. -/

namespace Apicrud

open Relational Dict

variable {svc : Service}

/-! ### Contacts -/

theorem contactInfo_agree {body body' : Dict} (h : BasicCrud.contactInfo svc body = .ok body') :
    AgreeOff ["info"] body body' := by
  unfold BasicCrud.contactInfo at h
  split_ifs at h with hsms hcarrier hemail
  · cases hinfo : body.get "info" with
    | str info =>
        rw [hinfo] at h
        simp only at h
        split_ifs at h
        cases h
        exact agreeOff_set body "info" _
    | none | bool _ | int _ | time _ | list _ => rw [hinfo] at h; cases h
  · cases hinfo : body.get "info" with
    | str info =>
        rw [hinfo] at h
        simp only at h
        cases hid : svc.lib.identityNormalize (.str (Text.strip info)) with
        | str info' =>
            rw [hid] at h
            simp only at h
            split_ifs at h
            cases h
            exact agreeOff_set body "info" _
        | none | bool _ | int _ | time _ | list _ => rw [hid] at h; cases h
    | none | bool _ | int _ | time _ | list _ => rw [hinfo] at h; cases h
  · cases h
    exact AgreeOff.refl _ _

theorem withRank_agree (db : Database) (body : Dict) :
    AgreeOff ["rank"] body (BasicCrud.withRank db body) := by
  unfold BasicCrud.withRank
  split_ifs
  · exact AgreeOff.refl _ _
  · exact agreeOff_set body "rank" _

theorem contactStatus_agree (body : Dict) :
    AgreeOff ["status"] body (BasicCrud.contactStatus body) := by
  unfold BasicCrud.contactStatus
  split_ifs
  · exact AgreeOff.refl _ _
  · exact agreeOff_set body "status" _

/-- What the contact checks leave of a body. -/
theorem createContact_ok {db : Database} {acc : Access} {body body' : Dict}
    (h : BasicCrud.createContact svc db acc body = .ok body') :
    AgreeOff ["info", "rank", "status"] body body' ∧
    body'.get "status" =
      if (body.get "status").truthy then body.get "status" else .str "unconfirmed" := by
  obtain ⟨b₁, h1, h⟩ := Checks.bind_eq_ok.mp h
  obtain ⟨_, _, h⟩ := Checks.bind_eq_ok.mp h
  obtain ⟨_, _, h⟩ := Checks.bind_eq_ok.mp h
  rw [Checks.pure_eq_ok] at h
  subst h
  have h1 := contactInfo_agree h1
  refine ⟨(h1.trans (withRank_agree db b₁)).trans (contactStatus_agree _), ?_⟩
  have hst : (BasicCrud.withRank db b₁).get "status" = body.get "status" := by
    rw [(withRank_agree db b₁ "status" (by decide)).2, (h1 "status" (by decide)).2]
  unfold BasicCrud.contactStatus
  rw [hst]
  split_ifs
  · exact hst
  · simp

/-! ### Create -/

theorem convertExpires_agree {body body' : Dict}
    (h : BasicCrud.convertExpires svc body = .ok body') : AgreeOff ["expires"] body body' := by
  unfold BasicCrud.convertExpires at h
  split_ifs at h with hexp
  · cases hval : body.get "expires" with
    | str date =>
        rw [hval] at h
        simp only at h
        cases hdate : svc.lib.fromdate date with
        | some t => rw [hdate] at h; cases h; exact agreeOff_set body "expires" _
        | none => rw [hdate] at h; cases h
    | none | bool _ | int _ | time _ | list _ => rw [hval] at h; cases h
  · cases h
    exact AgreeOff.refl _ _

theorem withId_agree (id : String) (now : ℕ) (body : Dict) :
    AgreeOff ["id", "created"] body (BasicCrud.withId id now body) :=
  (agreeOff_set body "id" _).trans (agreeOff_set _ "created" _)

theorem withOwner_agree (acc : Access) (m : Model) (body : Dict) :
    AgreeOff ["uid"] body (BasicCrud.withOwner acc m body) := by
  unfold BasicCrud.withOwner
  split_ifs
  · exact agreeOff_set body "uid" _
  · exact AgreeOff.refl _ _

theorem defaultCategory_agree {acc : Access} {amb : Ambient} {m : Model} {body body' : Dict}
    (h : BasicCrud.defaultCategory acc amb m body = .ok body') :
    AgreeOff ["category_id"] body body' := by
  unfold BasicCrud.defaultCategory at h
  split_ifs at h with h1 h2 h3
  · cases h
    exact AgreeOff.refl _ _
  · cases hcat : amb.categoryId with
    | some category => rw [hcat] at h; cases h; exact agreeOff_set body "category_id" _
    | none => rw [hcat] at h; cases h

theorem withStatus_agree (m : Model) (body : Dict) :
    AgreeOff ["status"] body (BasicCrud.withStatus m body) := by
  unfold BasicCrud.withStatus
  by_cases h : m.Has "status"
  · rw [if_pos h]
    exact agreeOff_set body "status" _
  · rw [if_neg h]
    exact AgreeOff.refl _ _

theorem dropRelated_agree (m : Model) (body : Dict) :
    AgreeOff ["scopes", "members", "lists"] body (BasicCrud.dropRelated m body) := by
  have hpop : ∀ k ∈ ["scopes", "members", "lists"],
      AgreeOff ["scopes", "members", "lists"] body (body.pop k) := fun k hk =>
    (agreeOff_pop body k).mono fun x hx => List.mem_singleton.mp hx ▸ hk
  unfold BasicCrud.dropRelated
  cases m
  case apikey => exact hpop "scopes" (by decide)
  case list => exact hpop "members" (by decide)
  case person => exact hpop "lists" (by decide)
  all_goals exact AgreeOff.refl _ _

theorem drawKey_agree {amb : Ambient} {m : Model} {body body' : Dict} {answer : List (String × Val)}
    (h : BasicCrud.drawKey svc amb m body = .ok (body', answer)) :
    AgreeOff ["prefix", "hashvalue"] body body' := by
  unfold BasicCrud.drawKey at h
  split_ifs at h
  · cases h
    exact (agreeOff_set body "prefix" _).trans (agreeOff_set _ "hashvalue" _)
  · cases h
    exact AgreeOff.refl _ _

/-- The keys that `create` may add, drop or convert. -/
def createdKeys : List String :=
  ["info", "rank", "status", "id", "created", "expires", "uid", "category_id", "scopes", "members",
    "lists", "prefix", "hashvalue"]

/-- The owner that `create` gives a record: the one in the body, or the session's user. -/
def ownerFor (acc : Access) (body : Dict) : Val :=
  if (body.get "uid").truthy then body.get "uid" else Val.ofOption acc.uid

/-- What the checks of `create` establish. -/
structure Created (svc : Service) (db : Database) (acc : Access) (m : Model) (body : Dict)
    (id : String) (p : BasicCrud.Prepared) : Prop where
  agree : AgreeOff createdKeys body p.body
  id_eq : p.body.get "id" = .str id
  uid_eq : m.Has "uid" → p.body.get "uid" = ownerFor acc body
  allowed : AccessControl.withPermission svc.policies db acc m 'c'
    { ownerUid := if m.Has "uid" then ownerFor acc body else body.get "uid"
      membership := some svc.policies.privateResource
      id := body.get "event_id" } = .ok true
  contact_status : m = .contact → p.body.get "status" =
    if (body.get "status").truthy then body.get "status" else .str "unconfirmed"
  keys : ∀ k ∈ p.body.keys, m.Has k
  related : ∀ r ∈ p.related, r.1 ∈ m.restRelated

theorem mem_relatedOf {m : Model} {body : Dict} {r : Related × Val}
    (h : r ∈ BasicCrud.relatedOf m body) : r.1 ∈ m.restRelated := by
  obtain ⟨rel, hrel, hr⟩ := List.mem_filterMap.mp h
  split_ifs at hr
  cases hr
  exact hrel

theorem prepare_ok {db : Database} {acc : Access} {amb : Ambient} {now : ℕ} {m : Model}
    {body : Dict} {pre : String} {limits : List (String × Val)} {p : BasicCrud.Prepared}
    (h : BasicCrud.prepare svc db acc amb now m body pre limits = .ok p) :
    Created svc db acc m body (amb.genIdWith pre .record) p := by
  obtain ⟨b₁, h1, h⟩ := Checks.bind_eq_ok.mp h
  obtain ⟨_, _, h⟩ := Checks.bind_eq_ok.mp h
  obtain ⟨b₂, h2, h⟩ := Checks.bind_eq_ok.mp h
  obtain ⟨allowed, hallowed, h⟩ := Checks.bind_eq_ok.mp h
  obtain ⟨_, hens, h⟩ := Checks.bind_eq_ok.mp h
  obtain ⟨b₃, h3, h⟩ := Checks.bind_eq_ok.mp h
  obtain ⟨_, _, h⟩ := Checks.bind_eq_ok.mp h
  obtain ⟨_, _, h⟩ := Checks.bind_eq_ok.mp h
  obtain ⟨⟨b₄, answer⟩, h4, h⟩ := Checks.bind_eq_ok.mp h
  obtain ⟨_, hkeys, h⟩ := Checks.bind_eq_ok.mp h
  rw [Checks.pure_eq_ok] at h
  subst h
  rw [Checks.ensure_eq_ok] at hkeys hens
  rw [Checks.orElse_eq_ok, hens] at hallowed
  -- the body after the contact checks, and what follows from there
  unfold BasicCrud.preCheck at h1
  have hb₁ : AgreeOff ["info", "rank", "status"] body b₁ := by
    split_ifs at h1
    · exact (createContact_ok h1).1
    · cases h1
      exact AgreeOff.refl _ _
  have hb₂ := (withId_agree (amb.genIdWith pre .record) now b₁).trans (convertExpires_agree h2)
  have hown := withOwner_agree acc m b₂
  have hb₃ := defaultCategory_agree h3
  have hst := withStatus_agree m b₃
  have hb₄ := (dropRelated_agree m _).trans (drawKey_agree h4)
  have hall := ((((hb₁.trans hb₂).trans hown).trans hb₃).trans hst).trans hb₄
  have hlate := (hb₃.trans hst).trans hb₄
  have huid₂ : b₂.get "uid" = body.get "uid" := ((hb₁.trans hb₂) "uid" (by decide)).2
  have howner : m.Has "uid" → (BasicCrud.withOwner acc m b₂).get "uid" = ownerFor acc body := by
    intro hhas
    unfold BasicCrud.withOwner ownerFor
    rw [huid₂]
    by_cases ht : (body.get "uid").truthy = true <;> simp [hhas, ht, huid₂]
  refine ⟨hall.mono (by decide), ?_, fun hhas => ?_, ?_, fun hm => ?_, hkeys,
    fun r hr => mem_relatedOf hr⟩
  · rw [(hlate "id" (by decide)).2, (hown "id" (by decide)).2,
      (convertExpires_agree h2 "id" (by decide)).2]
    simp [BasicCrud.withId]
  · rw [(hlate "uid" (by decide)).2, howner hhas]
  · convert hallowed using 2
    congr 1
    · split_ifs with hhas
      · exact (howner hhas).symm
      · have : BasicCrud.withOwner acc m b₂ = b₂ := by
          unfold BasicCrud.withOwner
          rw [if_neg fun h => hhas h.1]
        rw [this, huid₂]
    · rw [(hown "event_id" (by decide)).2, ((hb₁.trans hb₂) "event_id" (by decide)).2]
  · subst hm
    rw [if_pos rfl] at h1
    obtain ⟨_, hs⟩ := createContact_ok h1
    have hmem : "status" ∈ b₃ := by
      rw [(hb₃ "status" (by decide)).1, (hown "status" (by decide)).1, (hb₂ "status" (by decide)).1]
      refine Dict.mem_of_get ?_
      rw [hs]
      split_ifs with ht
      · rintro hnone
        rw [hnone] at ht
        cases ht
      · simp
    rw [(hb₄ "status" (by decide)).2]
    unfold BasicCrud.withStatus
    rw [if_pos (by decide), if_pos hmem]
    simp only [Dict.get_set, if_true]
    rw [(hb₃ "status" (by decide)).2, (hown "status" (by decide)).2, (hb₂ "status" (by decide)).2, hs]

/-! ### Update -/

/-- The keys that the way to `query.update` may add, drop or convert. -/
def touchedKeys : List String :=
  ["modified", "expires", "totp", "totp_secret", "geolat", "geolong", "neighborhood", "scopes",
    "members", "lists"]

theorem updateBody_agree {now : ℕ} {id : String} {body body' : Dict}
    (h : BasicCrud.updateBody svc now id body = .ok body') :
    AgreeOff ["modified", "expires", "totp", "totp_secret"] body body' := by
  obtain ⟨_, _, h⟩ := Checks.bind_eq_ok.mp h
  obtain ⟨converted, hconv, h⟩ := Checks.bind_eq_ok.mp h
  rw [Checks.pure_eq_ok] at h
  have hconv := (agreeOff_set body "modified" (.time now)).trans (convertExpires_agree hconv)
  subst h
  split_ifs
  · exact (hconv.trans (agreeOff_pop converted "totp")).mono (by decide)
  · exact hconv.trans ((agreeOff_pop converted "totp").trans (agreeOff_set _ "totp_secret" _))
  · exact hconv.mono (by decide)

theorem geocoded_agree (amb : Ambient) (body : Dict) :
    AgreeOff ["geolat", "geolong", "neighborhood"] body (Controllers.geocoded amb body) := by
  unfold Controllers.geocoded
  split_ifs
  · exact (agreeOff_set body "geolat" _).trans
      ((agreeOff_set _ "geolong" _).trans (agreeOff_set _ "neighborhood" _))
  · exact AgreeOff.refl _ _

theorem controllerBody_agree (amb : Ambient) (m : Model) (body : Dict) :
    AgreeOff ["expires", "geolat", "geolong", "neighborhood"] body
      (Controllers.updateBody amb m body) := by
  unfold Controllers.updateBody
  split
  · exact (agreeOff_pop body "expires").mono (by decide)
  · split_ifs
    · exact AgreeOff.refl _ _
    · exact (agreeOff_set body "expires" _).mono (by decide)
  · exact (geocoded_agree amb body).mono (by decide)
  · exact AgreeOff.refl _ _

/-- The related attributes are taken out of the body, and nothing else. -/
theorem updateRelateds_agree {m : Model} {id : String} {limits : List (String × Val)}
    {rels : List Related} {db db' : Database} {body body' : Dict}
    (h : BasicCrud.updateRelateds m id limits db rels body = (db', .ok body')) :
    AgreeOff (rels.map Related.attr) body body' := by
  induction rels generalizing db body with
  | nil =>
      cases h
      exact AgreeOff.refl _ _
  | cons rel rels ih =>
      rw [BasicCrud.updateRelateds] at h
      simp only at h
      split_ifs at h with hmem hbad hover
      · cases h
      · cases h
      · cases hup : BasicCrud.updateRelated db m id rel (body.get rel.attr) with
        | ok db₁ =>
            rw [hup] at h
            exact (agreeOff_pop body rel.attr).trans (ih h)
        | error e => rw [hup] at h; cases h
      · exact (ih h).mono (List.subset_cons_self _ _)

theorem restRelated_touched (m : Model) : m.restRelated.map Related.attr ⊆ touchedKeys := by
  cases m <;> decide

end Apicrud
