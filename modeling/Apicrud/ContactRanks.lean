import Apicrud.Messaging
import Apicrud.RecordQuotas

/-! # Ranks of contacts

A contact without a rank is given the one after the number of the contacts of its owner and type, and a
message is sent from the contact of the lowest rank.  The contacts are counted by what the body says before
the owner and the type are filled in, and their number is not their highest rank once one of them is deleted.
`RoomAtEnd` is what a creation needs for its contact to rank last, and `created_rank_last` what holds along a
run whose creations all have it. -/

namespace Apicrud

open Relational Dict Messaging

/-- The contacts of a user and type. -/
def contactsOf (db : Database) (uid type : Val) : List Row :=
  (db.rows .contact).filter fun r => decide (r "uid" = uid ∧ r "type" = type)

/-- The type that a contact gets. -/
def typeFor (body : Dict) : Val := if "type" ∈ body then body.get "type" else .str "email"

/-- A contact that is new in the second database ranks after all those of its user and type in the first. -/
def RanksLast (db db' : Database) : Prop :=
  ∀ new ∈ db'.rows .contact, new ∉ db.rows .contact →
    ∀ r ∈ contactsOf db (new "uid") (new "type"), rank r < rank new

/-- Two contacts, if they are of one user and type, have different ranks. -/
def RankedApart (a b : Row) : Prop := a "uid" = b "uid" → a "type" = b "type" → rank a ≠ rank b

instance : Std.Symm RankedApart := ⟨fun _ _ h huid htype => (h huid.symm htype.symm).symm⟩

/-- No two contacts of a user and type have the same rank. -/
def DistinctRanks (db : Database) : Prop := (db.rows .contact).Pairwise RankedApart

/-- Where the body names both, no contact of the owner and type ranks after their number; where it leaves one
to its default, none has a rank yet. -/
def RoomAtEnd (db : Database) (acc : Access) (body : Dict) : Prop :=
  if "uid" ∈ body ∧ "type" ∈ body then
    ∀ r ∈ contactsOf db (body.get "uid") (body.get "type"),
      rank r ≤ (contactsOf db (body.get "uid") (body.get "type")).length
  else ∀ r ∈ contactsOf db (ownerFor acc body) (typeFor body), rank r ≤ 0

instance (db : Database) (acc : Access) (body : Dict) : Decidable (RoomAtEnd db acc body) :=
  inferInstanceAs (Decidable (if "uid" ∈ body ∧ "type" ∈ body then
    ∀ r ∈ contactsOf db (body.get "uid") (body.get "type"),
      rank r ≤ (contactsOf db (body.get "uid") (body.get "type")).length
    else ∀ r ∈ contactsOf db (ownerFor acc body) (typeFor body), rank r ≤ 0))

/-- A body without a rank, with an owner or none. -/
def Unranked (body : Dict) : Prop :=
  "rank" ∉ body ∧ ("uid" ∈ body → (body.get "uid").truthy = true)

/-- Contacts are created without a rank, and records deleted for good. -/
def Call.OnContacts : Call → Prop
  | .post m body => m = .contact ∧ Unranked body
  | .delete _ _ force => force = true
  | .trashDelete _ => True
  | _ => False

/-- There is room at the end for the contact that an event creates. -/
def HasRoom (svc : Service) (w : World) (e : Event) : Prop :=
  ∀ body, e.call = .post .contact body → RoomAtEnd w.db (e.req.access svc (w.at e)) body

variable {svc : Service} {db db' : Database} {acc : Access} {amb : Ambient} {now : ℕ} {body body' : Dict}
  {pre : String} {limits : List (String × Val)} {p : BasicCrud.Prepared}

/-! ### The rank of a new contact -/

theorem mem_contactsOf {uid type : Val} {r : Row} :
    r ∈ contactsOf db uid type ↔ r ∈ db.rows .contact ∧ r "uid" = uid ∧ r "type" = type := by
  simp [contactsOf]

/-- No contact is without an owner or a type. -/
theorem contactsOf_none {uid type : Val} (h : uid = .none ∨ type = .none) :
    contactsOf db uid type = [] := by
  refine List.eq_nil_iff_forall_not_mem.mpr fun r hr => ?_
  obtain ⟨hrow, huid, htype⟩ := mem_contactsOf.mp hr
  rcases h with hnone | hnone
  · exact db.ne_none hrow (by decide : "uid" ∈ schema.notNull .contact) (huid.trans hnone)
  · exact db.ne_none hrow (by decide : "type" ∈ schema.notNull .contact) (htype.trans hnone)

theorem createContact_rank (h : BasicCrud.createContact svc db acc body = .ok body')
    (hrank : "rank" ∉ body) :
    body'.get "rank" = .int ((contactsOf db (body.get "uid") (body.get "type")).length + 1) ∧
    ("type" ∈ body → body.get "type" ≠ .none) := by
  obtain ⟨b₁, h₁, h⟩ := Checks.bind_eq_ok.mp h
  obtain ⟨_, htype, h⟩ := Checks.bind_eq_ok.mp h
  obtain ⟨_, _, h⟩ := Checks.bind_eq_ok.mp h
  rw [Checks.pure_eq_ok] at h
  rw [Checks.ensure_eq_ok] at htype
  subst h
  have h₁ := contactInfo_agree h₁
  have hnone : b₁.get "rank" = .none := by
    rw [(h₁ "rank" (by decide)).2]
    exact Dict.get_of_not_mem hrank
  constructor
  · rw [(contactStatus_agree _ "rank" (by decide)).2]
    unfold BasicCrud.withRank
    rw [hnone, (h₁ "uid" (by decide)).2, (h₁ "type" (by decide)).2]
    simp [contactsOf, Val.truthy]
  · intro hmem
    rw [(h₁ "type" (by decide)).2, (h₁ "type" (by decide)).1] at htype
    rcases htype hmem with hsms | hemail
    · simp [hsms]
    · simp [hemail]

/-- The rank is that of `_create_contact`: what comes after leaves it. -/
theorem prepare_rank (h : BasicCrud.prepare svc db acc amb now .contact body pre limits = .ok p)
    (hrank : "rank" ∉ body) :
    p.body.get "rank" = .int ((contactsOf db (body.get "uid") (body.get "type")).length + 1) ∧
    ("type" ∈ body → body.get "type" ≠ .none) := by
  obtain ⟨b₁, h₁, h⟩ := Checks.bind_eq_ok.mp h
  obtain ⟨_, _, h⟩ := Checks.bind_eq_ok.mp h
  obtain ⟨b₂, h₂, h⟩ := Checks.bind_eq_ok.mp h
  obtain ⟨_, _, h⟩ := Checks.bind_eq_ok.mp h
  obtain ⟨_, _, h⟩ := Checks.bind_eq_ok.mp h
  obtain ⟨b₃, h₃, h⟩ := Checks.bind_eq_ok.mp h
  obtain ⟨_, _, h⟩ := Checks.bind_eq_ok.mp h
  obtain ⟨_, _, h⟩ := Checks.bind_eq_ok.mp h
  obtain ⟨⟨b₄, answer⟩, h₄, h⟩ := Checks.bind_eq_ok.mp h
  obtain ⟨_, _, h⟩ := Checks.bind_eq_ok.mp h
  rw [Checks.pure_eq_ok] at h
  subst h
  have hlate := ((((((withId_agree (amb.genIdWith pre .record) now b₁).trans
    (convertExpires_agree h₂)).trans (withOwner_agree acc .contact b₂)).trans
    (defaultCategory_agree h₃)).trans (withStatus_agree .contact b₃)).trans
    (dropRelated_agree .contact _)).trans (drawKey_agree h₄)
  rw [(hlate "rank" (by decide)).2]
  exact createContact_rank h₁ hrank

/-- The cells of a new contact that its rank is about. -/
theorem newContact_cells (h : BasicCrud.prepare svc db acc amb now .contact body pre limits = .ok p)
    (hrank : "rank" ∉ body) :
    rank (BasicCrud.newRow .contact p.body) =
        (contactsOf db (body.get "uid") (body.get "type")).length + 1 ∧
      BasicCrud.newRow .contact p.body "uid" = ownerFor acc body ∧
      BasicCrud.newRow .contact p.body "type" = typeFor body := by
  obtain ⟨hnew, htype⟩ := prepare_rank h hrank
  refine ⟨?_, BasicCrud.newRow_uid (by decide) h, ?_⟩
  · unfold rank
    rw [newRow_of_ne (by rw [hnew]; simp), hnew]
  · have hget : p.body.get "type" = body.get "type" := ((prepare_ok h).agree "type" (by decide)).2
    unfold typeFor
    split_ifs with hmem
    · rw [newRow_of_ne (by rw [hget]; exact htype hmem), hget]
    · unfold BasicCrud.newRow Schema.fill
      rw [if_pos (by rw [Row.ofDict, hget]; exact Dict.get_of_not_mem hmem)]
      rfl

/-- Where a contact ranks among those of its owner and type. -/
theorem newContact_last (h : BasicCrud.prepare svc db acc amb now .contact body pre limits = .ok p)
    (hbody : Unranked body) :
    (∀ r ∈ contactsOf db (BasicCrud.newRow .contact p.body "uid") (BasicCrud.newRow .contact p.body "type"),
      rank r < rank (BasicCrud.newRow .contact p.body)) ↔ RoomAtEnd db acc body := by
  obtain ⟨hrank, huid, htype⟩ := newContact_cells h hbody.1
  rw [hrank, huid, htype]
  unfold RoomAtEnd
  split_ifs with hnamed
  · have howner : ownerFor acc body = body.get "uid" := if_pos (hbody.2 hnamed.1)
    have hsort : typeFor body = body.get "type" := if_pos hnamed.2
    rw [howner, hsort]
    exact forall₂_congr fun r _ => Int.lt_add_one_iff
  · have hnone : contactsOf db (body.get "uid") (body.get "type") = [] := by
      apply contactsOf_none
      by_cases huid : "uid" ∈ body
      · exact Or.inr (Dict.get_of_not_mem fun htype => hnamed ⟨huid, htype⟩)
      · exact Or.inl (Dict.get_of_not_mem huid)
    rw [hnone]
    exact forall₂_congr fun r _ => Int.lt_add_one_iff

/-! ### Requests -/

/-- A request inserts the row of a contact, or leaves the contacts as they are. -/
theorem post_contact (svc : Service) (w : World) (req : Request) (body : Dict) :
    (Controllers.post svc w req .contact body).1.db.rows .contact = w.db.rows .contact ∧
      (∀ p db₁, ¬ Inserts svc w.db (req.access svc w) req.amb w.now .contact body "x-" [] p db₁) ∨
    ∃ p db₁, Inserts svc w.db (req.access svc w) req.amb w.now .contact body "x-" [] p db₁ ∧
      (Controllers.post svc w req .contact body).1.db.rows .contact =
        w.db.rows .contact ++ [BasicCrud.newRow .contact p.body] := by
  have hpost : (Controllers.post svc w req .contact body).1.db =
      (Controllers.created svc w req .contact body).1 := by
    rw [post_eq (by decide) (by decide) fun h => absurd h.1 (by decide)]
    split_ifs
    · exact confirmed_db _ _ _ _
    · rfl
  have hcreated : Controllers.created svc w req .contact body =
      BasicCrud.create svc w.db (req.access svc w) req.amb w.now .contact body "x-" [] := rfl
  rw [hpost, hcreated]
  rcases create_cases svc w.db (req.access svc w) req.amb w.now .contact body "x-" [] with
    ⟨hnone, answer, hcreate, -⟩ | ⟨p, db₁, hinserts, hcreate⟩
  · left
    rw [hcreate]
    exact ⟨rfl, hnone⟩
  · right
    refine ⟨p, db₁, hinserts, ?_⟩
    have hrelated : p.related = [] := prepare_related hinserts.1
    rw [hcreate, hrelated, BasicCrud.createRelated, Store.rows, store_ok hinserts.2, Db.insert,
      Function.update_self]
    rfl

/-- The row of a new contact is not one of those that were there. -/
theorem Inserts.not_mem {db₁ : Database}
    (h : Inserts svc db acc amb now .contact body pre limits p db₁) :
    BasicCrud.newRow .contact p.body ∉ db.rows .contact := by
  intro hold
  have hfound : BasicCrud.newRow .contact p.body ∈ byId db .contact (amb.genIdWith pre .record) :=
    List.mem_filter.mpr ⟨hold, decide_eq_true (newRow_id h.1)⟩
  rw [h.fresh (by decide)] at hfound
  cases hfound

/-- What was not added need not rank last. -/
theorem ranksLast_of_subset (h : db'.rows .contact ⊆ db.rows .contact) : RanksLast db db' :=
  fun _ hnew hfresh => absurd (h hnew) hfresh

/-- A contact that is created ranks last exactly if there is room for it at the end. -/
theorem post_ranksLast {w : World} {req : Request} (hbody : Unranked body) :
    RanksLast w.db (Controllers.post svc w req .contact body).1.db ↔
      ∀ p db₁, Inserts svc w.db (req.access svc w) req.amb w.now .contact body "x-" [] p db₁ →
        RoomAtEnd w.db (req.access svc w) body := by
  rcases post_contact svc w req body with ⟨hsame, hnone⟩ | ⟨p, db₁, hinserts, hrows⟩
  · refine ⟨fun _ p db₁ hinserts => absurd hinserts (hnone p db₁), fun _ => ?_⟩
    exact ranksLast_of_subset fun row hrow => hsame ▸ hrow
  · rw [← newContact_last hinserts.1 hbody]
    constructor
    · intro hlast _ _ _
      refine hlast _ ?_ hinserts.not_mem
      rw [hrows]
      exact List.mem_append_right _ (List.mem_singleton_self _)
    · intro hroom new hnew hfresh
      rw [hrows] at hnew
      rcases List.mem_append.mp hnew with hold | hlast
      · exact absurd hold hfresh
      · rw [List.mem_singleton.mp hlast]
        exact hroom p db₁ hinserts

/-- Contacts go with the records that are deleted, and none comes. -/
theorem AllOrNothing.contacts {named : List (Option (Model × String))} {r : Database × Response}
    (h : AllOrNothing svc acc true db named r) : (r.1.rows .contact).Sublist (db.rows .contact) := by
  rcases h.same_or_turns with hsame | ⟨names, -, hturns⟩
  · rw [hsame]
  · exact hturns.sublist

/-- An event takes contacts away, or is a creation. -/
theorem next_contacts (svc : Service) (w : World) {e : Event} (he : e.call.OnContacts) :
    (((machine svc).next w e).db.rows .contact).Sublist (w.db.rows .contact) ∨
    ∃ body, e.call = .post .contact body ∧ Unranked body ∧
      ((machine svc).next w e).db = (Controllers.post svc (w.at e) e.req .contact body).1.db := by
  obtain ⟨elapsed, req, call⟩ := e
  cases call with
  | post m body =>
      obtain ⟨rfl, hbody⟩ := he
      exact Or.inr ⟨body, rfl, hbody, rfl⟩
  | delete m ids force =>
      left
      obtain rfl : force = true := he
      simp only [Machine.next, machine, handle, Controllers.delete]
      by_cases hm : m ∉ Controllers.routed
      · rw [if_pos hm]
        exact List.Sublist.refl _
      · rw [if_neg hm]
        exact (delete_allOrNothing m ids true).contacts
  | trashDelete ids => exact Or.inl (trashDelete_allOrNothing ids).contacts
  | _ => exact he.elim

/-- Where there is room, what a request creates ranks last. -/
theorem next_ranksLast {w : World} {e : Event} (he : e.call.OnContacts) (hroom : HasRoom svc w e) :
    RanksLast w.db ((machine svc).next w e).db := by
  rcases next_contacts svc w he with hsub | ⟨body, hcall, hbody, hnext⟩
  · exact ranksLast_of_subset hsub.subset
  · rw [hnext]
    exact (post_ranksLast (w := w.at e) hbody).mpr fun _ _ _ => hroom body hcall

/-! ### Distinct ranks -/

/-- A contact that ranks last has a rank of its own. -/
theorem DistinctRanks.append {row : Row} (h : DistinctRanks db) (hrow : row ∉ db.rows .contact)
    (hrows : db'.rows .contact = db.rows .contact ++ [row]) (hlast : RanksLast db db') :
    DistinctRanks db' := by
  unfold DistinctRanks
  rw [hrows]
  refine List.pairwise_append.mpr ⟨h, List.pairwise_singleton _ _, fun r hr new hnew huid htype => ?_⟩
  obtain rfl := List.mem_singleton.mp hnew
  have hmem : new ∈ db'.rows .contact := by
    rw [hrows]
    exact List.mem_append_right _ hnew
  have hless : rank r < rank new :=
    hlast new hmem hrow r (mem_contactsOf.mpr ⟨hr, huid, htype⟩)
  omega

/-- Ranks stay distinct where what is created ranks last. -/
theorem next_distinctRanks {w : World} {e : Event} (he : e.call.OnContacts)
    (hlast : RanksLast w.db ((machine svc).next w e).db) (h : DistinctRanks w.db) :
    DistinctRanks ((machine svc).next w e).db := by
  rcases next_contacts svc w he with hsub | ⟨body, -, -, hnext⟩
  · exact h.sublist hsub
  · rw [hnext] at hlast ⊢
    rcases post_contact svc (w.at e) e.req body with ⟨hsame, -⟩ | ⟨p, db₁, hinserts, hrows⟩
    · unfold DistinctRanks
      rw [hsame]
      exact h
    · exact h.append hinserts.not_mem hrows hlast

/-- The sender's contact of a type is the same one in whatever order the database returns them. -/
theorem firstByRank_perm {frm : String} {type : Val} {contacts : List Row} (h : DistinctRanks db)
    (hperm : contacts.Perm ((usable db frm).filter fun c => decide (c "type" = type))) :
    firstByRank contacts = firstByRank ((usable db frm).filter fun c => decide (c "type" = type)) := by
  have hof : ∀ c ∈ contacts, c ∈ db.rows .contact ∧ c "uid" = .str frm ∧ c "type" = type := by
    intro c hc
    obtain ⟨hmem, htype⟩ := List.mem_filter.mp (hperm.subset hc)
    obtain ⟨hrow, hsender⟩ := List.mem_filter.mp hmem
    exact ⟨hrow, (of_decide_eq_true hsender).1, of_decide_eq_true htype⟩
  have hdistinct : ∀ a ∈ contacts, ∀ b ∈ contacts, rank a = rank b → a = b := by
    intro a ha b hb hrank
    by_contra hne
    obtain ⟨harow, hauid, hatype⟩ := hof a ha
    obtain ⟨hbrow, hbuid, hbtype⟩ := hof b hb
    exact List.Pairwise.forall h harow hbrow hne (hauid.trans hbuid.symm) (hatype.trans hbtype.symm)
      hrank
  unfold firstByRank
  congr 1
  refine List.Perm.eq_of_pairwise ?_
    (List.pairwise_insertionSort (fun a b => rank a ≤ rank b) _)
    (List.pairwise_insertionSort (fun a b => rank a ≤ rank b) _) ?_
  · intro a b ha hb hab hba
    refine hdistinct a ((List.mem_insertionSort _).mp ha) b ?_ (by omega)
    exact hperm.symm.subset ((List.mem_insertionSort _).mp hb)
  · exact ((List.perm_insertionSort _ _).trans hperm).trans (List.perm_insertionSort _ _).symm

/-! ### Runs -/

/-- Along a run whose creations all have room at the end, every contact that is created ranks last.  Ranks
that were distinct stay so, and the contact that a message is sent from does not depend on the order in which
the database returns them. -/
theorem created_rank_last {w : World} {es : List Event}
    (h : (machine svc).Along (fun w e => e.call.OnContacts ∧ HasRoom svc w e) w es) :
    (machine svc).Along (fun w e => RanksLast w.db ((machine svc).next w e).db) w es ∧
    (DistinctRanks w.db → (machine svc).Along (fun w e => DistinctRanks ((machine svc).next w e).db ∧
      ∀ frm type contacts,
        contacts.Perm ((usable ((machine svc).next w e).db frm).filter fun c => decide (c "type" = type)) →
        firstByRank contacts = firstByRank ((usable ((machine svc).next w e).db frm).filter fun c =>
          decide (c "type" = type))) w es) := by
  have hstep : ∀ w e, DistinctRanks w.db → e.call.OnContacts ∧ HasRoom svc w e →
      DistinctRanks ((machine svc).next w e).db :=
    fun w e hw he => next_distinctRanks he.1 (next_ranksLast he.1 he.2) hw
  constructor
  · exact h.of_invariant (I := fun _ => True) (fun _ _ _ _ => trivial)
      (fun w e _ he => next_ranksLast he.1 he.2) trivial
  · refine h.of_invariant (I := fun w => DistinctRanks w.db) hstep fun w e hw he => ?_
    exact ⟨hstep w e hw he, fun frm type contacts hperm => firstByRank_perm (hstep w e hw he) hperm⟩

/-- A request of the other user. -/
def ofSecond (id : String) (call : Call) : Event :=
  ⟨1, Seed.request { authorization := some ("u-0002", "t1") } id, call⟩

/-- A contact of the other user, whose owner is named or not. -/
def secondContact (info : String) (owner : List (String × Val)) : Dict :=
  Dict.ofList (owner ++ [("type", .str "email"), ("info", .str info)])

/-- A contact is made after the one that there is, deleted, and another one made in its place. -/
def rankRun : List Event :=
  [ofSecond "q1" (.post .contact (secondContact "second@example.org" [("uid", .str "u-0002")])),
    ofSecond "q2" (.delete .contact ["x-q1"] true),
    ofSecond "q3" (.post .contact (secondContact "second@example.net" [("uid", .str "u-0002")]))]

theorem rankRun_last :
    (((machine Seed.service).run quotaWorld rankRun).db.rows .contact).map rank = [1, 1, 2] ∧
    (machine Seed.service).Along (fun w e => RanksLast w.db ((machine Seed.service).next w e).db)
      quotaWorld rankRun := by
  refine ⟨by decide +kernel, (created_rank_last ?_).1⟩
  refine ⟨⟨⟨rfl, ?_⟩, ?_⟩, ⟨rfl, ?_⟩, ⟨⟨rfl, ?_⟩, ?_⟩, trivial⟩
  · exact ⟨by decide +kernel, fun _ => by decide +kernel⟩
  · intro body hcall
    rw [← (Call.post.inj hcall).2]
    decide +kernel
  · intro body hcall
    cases hcall
  · exact ⟨by decide +kernel, fun _ => by decide +kernel⟩
  · intro body hcall
    rw [← (Call.post.inj hcall).2]
    decide +kernel

/-- A contact goes while a later one stays: the next one would get the rank of that. -/
example : (contactsOf ((machine Seed.service).run quotaWorld
    [ofSecond "q1" (.post .contact (secondContact "second@example.org" [("uid", .str "u-0002")])),
      ofSecond "q2" (.post .contact (secondContact "second@example.net" [("uid", .str "u-0002")])),
      ofSecond "q3" (.delete .contact ["x-q1"] true)]).db (.str "u-0002") (.str "email")).map rank =
    [1, 3] := by
  decide +kernel

/-- Without an owner in the body, the contact of the other user gets the rank of the one that there is. -/
theorem defaulted_owner_not_last : ¬ ∀ (svc : Service) (w : World) (es : List Event),
    (machine svc).Along (fun _ e => e.call.OnContacts) w es →
    (machine svc).Along (fun w e => RanksLast w.db ((machine svc).next w e).db) w es := by
  intro hall
  have hunranked : Unranked (secondContact "second@example.org" []) :=
    ⟨by decide +kernel, fun huid => absurd huid (by decide +kernel)⟩
  have hlast := (hall Seed.service quotaWorld
    [ofSecond "q1" (.post .contact (secondContact "second@example.org" []))]
    ⟨⟨rfl, hunranked⟩, trivial⟩).1
  have hranks : ∃ new ∈ ((machine Seed.service).next quotaWorld
      (ofSecond "q1" (.post .contact (secondContact "second@example.org" [])))).db.rows .contact,
      new "id" ∉ (quotaWorld.db.rows .contact).map (fun r => r "id") ∧
      ∃ r ∈ contactsOf quotaWorld.db (new "uid") (new "type"), ¬ rank r < rank new := by
    decide +kernel
  obtain ⟨new, hnew, hid, r, hr, hrank⟩ := hranks
  exact hrank (hlast new hnew (fun hold => hid (List.mem_map_of_mem hold)) r hr)

end Apicrud
