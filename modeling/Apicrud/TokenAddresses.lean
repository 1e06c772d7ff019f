import Apicrud.ContactRanks
import Apicrud.ContactUpdates
import Apicrud.Tokens

/-! # The address that a token was sent to

A token is made for the address that its contact has at that time, and `confirm` activates the contact
without a look at the address that it has by then.  As long as no address is changed while a token of the
contact can still be used, a confirmation is one of the address that the token was sent to
(`confirms_along_sent`); otherwise an address becomes active that no token was sent to
(`movedAddress_confirmed`). -/

namespace Apicrud

open Relational Confirmation

/-- Contacts are made and changed, and tokens requested and confirmed. -/
def Call.OnAddresses : Call → Prop
  | .post m _ | .put m _ _ => m = .contact
  | .confirmationGet _ | .confirm _ => True
  | _ => False

/-- No session of the store holds a token. -/
def NoTokens (redis : Redis) : Prop := ∀ k ses d, redis k = some (ses, d) → ses.get "param" = .none

/-- A contact has the address. -/
def HasAddress (db : Database) (id : String) (info : Val) : Prop :=
  ∃ contact ∈ db.rows .contact, contact "id" = .str id ∧ contact "info" = info

/-- A token that can still be used was made for the address that its contact has. -/
def TokensSent (p : World × List Issue) : Prop :=
  ∀ k ses d, p.1.redis k = some (ses, d) → ses.get "param" ≠ .none →
    ∃ i ∈ p.2, ses.get "param" = .str i.token ∧ ses.get "jti" = .str i.nonce ∧
      k = SessionManager.key i.owner i.nonce none ∧ ∃ id, i.contact "id" = .str id ∧
        (p.1.now < d → HasAddress p.1.db id (i.contact "info"))

/-- The contact of a token is active at the address that the token was made for, and the other contacts are as
they were. -/
structure ActivatesSent (db db' : Database) (i : Issue) : Prop where
  active : ∃ contact ∈ db'.rows .contact, contact "id" = i.contact "id" ∧
    contact "status" = .str "active" ∧ contact "info" = i.contact "info"
  others : ∀ contact ∈ db'.rows .contact, contact "id" ≠ i.contact "id" → contact ∈ db.rows .contact

variable (svc : Service)

/-- A confirmation that succeeds activates a contact at the address that the token was sent to. -/
def ConfirmsSent (p : World × List Issue) (e : Event) : Prop :=
  ∀ token, e.call = .confirm token → ((watchedTokens svc).out p e).status = 200 →
    ∃ i ∈ p.2, i.token = token ∧ ActivatesSent p.1.db ((watchedTokens svc).next p e).1.db i

/-- An update of a contact that goes through writes the address that is there, or finds no token of the
contact that can still be used. -/
def AddressStays (p : World × List Issue) (e : Event) : Prop :=
  ∀ id body checked contact db', e.call = .put .contact id body →
    BasicCrud.updateContact svc p.1.db (e.req.access svc (p.1.at e)) (p.1.now + e.elapsed) id body =
      .ok db' →
    BasicCrud.contactInfo svc body = .ok checked → one (byId p.1.db .contact id) = .ok contact →
    "info" ∈ checked → checked.get "info" = contact "info" ∨
      ∀ nonce, SessionManager.get p.1.redis (p.1.now + e.elapsed) (some id) nonce "param" = .none

variable {svc} {w : World} {req : Request} {call : Call} {db db' db₁ : Database} {acc : Access} {now : ℕ}
  {id id' : String} {info : Val} {i : Issue} {body checked : Dict} {contact : Row}

/-! ### Addresses -/

/-- The id of a contact is not written. -/
theorem BasicCrud.ContactUpdated.write_id
    (h : BasicCrud.ContactUpdated svc db acc now id body checked contact db₁ db') {row : Row}
    (hid : row "id" = .str id) : row.write (BasicCrud.contactBody now checked) "id" = .str id := by
  have hget : (BasicCrud.contactBody now checked).get "id" = checked.get "id" := by
    unfold BasicCrud.contactBody
    split <;> simp
  have hmem : "id" ∈ BasicCrud.contactBody now checked ↔ "id" ∈ checked := by
    unfold BasicCrud.contactBody
    split <;> simp
  by_cases hwritten : "id" ∈ BasicCrud.contactBody now checked
  · rw [Row.write_of_mem row hwritten, hget]
    exact h.id_eq (hmem.mp hwritten)
  · rw [Row.write_of_not_mem row hwritten, hid]

theorem BasicCrud.ContactUpdated.contacts
    (h : BasicCrud.ContactUpdated svc db acc now id body checked contact db₁ db') :
    db'.rows .contact = (db.rows .contact).map fun row =>
      if hasId id row then row.write (BasicCrud.contactBody now checked) else row := by
  have hfirst : db₁.1 .contact = (db.rows .contact).map fun row =>
      if hasId id row then row.write (BasicCrud.contactBody now checked) else row := by
    rw [h.written, Db.modify, Function.update_self]
    rfl
  rcases h.moved with ⟨-, hdb⟩ | ⟨-, rfl⟩
  · rw [Store.rows, hdb, BasicCrud.moveIdentity, Db.modify_ne _ _ _ (by decide), hfirst]
  · exact hfirst

/-- An address stays that is not the one that is written, or is written as it was. -/
theorem BasicCrud.ContactUpdated.address
    (h : BasicCrud.ContactUpdated svc db acc now id body checked contact db₁ db')
    (hsame : id' = id → "info" ∈ checked → checked.get "info" = contact "info")
    (haddress : HasAddress db id' info) : HasAddress db' id' info := by
  obtain ⟨row, hrow, hid, hinfo⟩ := haddress
  by_cases hother : id' = id
  · subst hother
    obtain rfl : row = contact := by
      have hone := (one_byId hrow (by decide) hid).symm.trans h.found
      exact Except.ok.inj hone
    refine ⟨row.write (BasicCrud.contactBody now checked), ?_, h.write_id hid, ?_⟩
    · rw [h.contacts, List.mem_map]
      exact ⟨row, hrow, if_pos (decide_eq_true hid)⟩
    · have hget : (BasicCrud.contactBody now checked).get "info" = checked.get "info" := by
        unfold BasicCrud.contactBody
        split <;> simp
      have hmem : "info" ∈ BasicCrud.contactBody now checked ↔ "info" ∈ checked := by
        unfold BasicCrud.contactBody
        split <;> simp
      by_cases hwritten : "info" ∈ BasicCrud.contactBody now checked
      · rw [Row.write_of_mem row hwritten, hget, hsame rfl (hmem.mp hwritten), hinfo]
      · rw [Row.write_of_not_mem row hwritten, hinfo]
  · refine ⟨row, ?_, hid, hinfo⟩
    rw [h.contacts, List.mem_map]
    refine ⟨row, hrow, if_neg ?_⟩
    simpa [hasId, hid] using hother

theorem put_contact_ok (h : BasicCrud.updateContact svc w.db (req.access svc w) w.now id body = .ok db') :
    (Controllers.put svc w req .contact id body).1.db = db' := by
  unfold Controllers.put
  simp only [h]
  rw [if_neg (by decide), if_pos trivial]
  exact confirmed_db _ _ _ _

theorem put_contact_error {answer : Response}
    (h : BasicCrud.updateContact svc w.db (req.access svc w) w.now id body = .error answer) :
    (Controllers.put svc w req .contact id body).1.db = w.db := by
  unfold Controllers.put
  simp only [h]
  rw [if_neg (by decide), if_pos trivial]

theorem confirmationGet_db (svc : Service) (w : World) (req : Request) (id : String) :
    (handle svc w req (.confirmationGet id)).1.db = w.db := by
  simp only [handle]
  split
  · exact requested_db ‹_›
  · exact requested_db ‹_›

/-- A confirmation leaves the database, or activates the contact that the token names. -/
theorem confirm_db (svc : Service) (w : World) (amb : Ambient) (token : String) (clear : Bool) :
    (confirm svc w amb token clear).1.db = w.db ∧ (confirm svc w amb token clear).2.status ≠ 200 ∨
    ∃ id info nonce contact, check svc w token = .ok (id, info, nonce, contact) ∧
      (confirm svc w amb token clear).1.db.1 = activate w.db id (contact "uid") := by
  cases hcheck : check svc w token with
  | error answer =>
      left
      unfold confirm
      rw [hcheck]
      exact ⟨rfl, check_error hcheck⟩
  | ok parts =>
      obtain ⟨id, info, nonce, contact⟩ := parts
      right
      refine ⟨id, info, nonce, contact, rfl, ?_⟩
      rw [confirm_eq clear hcheck (schema.store_of_valid (activate_valid w.db id (contact "uid")))]
      rfl

theorem activate_contacts (db : Database) (id : String) (uid : Val) :
    activate db id uid .contact = (db.rows .contact).map fun row =>
      if hasId id row then Function.update row "status" (.str "active") else row := by
  unfold activate
  rw [Db.modify_ne _ _ _ (by decide), Db.modify, Function.update_self]
  rfl

theorem activate_address {uid : Val} (hdb : db'.1 = activate db id uid)
    (haddress : HasAddress db id' info) : HasAddress db' id' info := by
  obtain ⟨row, hrow, hid, hinfo⟩ := haddress
  have hcontacts : db'.rows .contact = _ := (congrFun hdb .contact).trans (activate_contacts db id uid)
  refine ⟨if hasId id row then Function.update row "status" (.str "active") else row, ?_, ?_, ?_⟩
  · rw [hcontacts]
    exact List.mem_map_of_mem hrow
  · split
    · rw [Function.update_of_ne (by decide), hid]
    · exact hid
  · split
    · rw [Function.update_of_ne (by decide), hinfo]
    · exact hinfo

/-- The contacts keep their addresses, but for the one that an update writes. -/
theorem handle_address (hcall : call.OnAddresses) (haddress : HasAddress w.db id info)
    (hstays : ∀ body checked contact db', call = .put .contact id body →
      BasicCrud.updateContact svc w.db (req.access svc w) w.now id body = .ok db' →
      BasicCrud.contactInfo svc body = .ok checked → one (byId w.db .contact id) = .ok contact →
      "info" ∈ checked → checked.get "info" = contact "info") :
    HasAddress (handle svc w req call).1.db id info := by
  cases call with
  | post m body =>
      obtain rfl : m = .contact := hcall
      obtain ⟨row, hrow, hrest⟩ := haddress
      refine ⟨row, ?_, hrest⟩
      rcases post_contact svc w req body with ⟨hsame, -⟩ | ⟨p, db₁, -, hrows⟩
      · exact hsame.symm ▸ hrow
      · exact hrows.symm ▸ List.mem_append_left _ hrow
  | put m cid body =>
      obtain rfl : m = .contact := hcall
      change HasAddress (Controllers.put svc w req .contact cid body).1.db id info
      cases hok : BasicCrud.updateContact svc w.db (req.access svc w) w.now cid body with
      | error answer =>
          rw [put_contact_error hok]
          exact haddress
      | ok db' =>
          rw [put_contact_ok hok]
          obtain ⟨checked, contact, db₁, hupdated⟩ := BasicCrud.updateContact_ok hok
          refine hupdated.address (fun hsame => ?_) haddress
          subst hsame
          exact hstays body checked contact db' rfl hok hupdated.checked_eq hupdated.found
  | confirmationGet cid =>
      rw [confirmationGet_db]
      exact haddress
  | confirm token =>
      change HasAddress (confirm svc w req.amb token false).1.db id info
      rcases confirm_db svc w req.amb token false with ⟨hsame, -⟩ | ⟨_, _, _, _, -, hdb⟩
      · rw [hsame]
        exact haddress
      · exact activate_address hdb haddress
  | _ => exact hcall.elim

/-- A token is made for the address that its contact has when the request is served. -/
theorem issuedBy_address (hcall : call.OnAddresses) (hissued : issuedBy svc w req call = some i)
    (hid : i.contact "id" = .str id) :
    HasAddress (handle svc w req call).1.db id (i.contact "info") := by
  obtain ⟨⟨db, cid⟩, hrequested, hissue⟩ := Option.bind_eq_some_iff.mp hissued
  have hdb : (handle svc w req call).1.db = db := by
    cases call with
    | post m body =>
        obtain rfl : m = .contact := hcall
        change (Controllers.post svc w req .contact body).1.db = db
        simp only [requested] at hrequested
        rw [post_eq (by decide) (by decide) fun h => absurd h.1 (by decide)]
        split_ifs at hrequested ⊢
        cases hrequested
        exact confirmed_db _ _ _ _
    | put m cid body =>
        obtain rfl : m = .contact := hcall
        change (Controllers.put svc w req .contact cid body).1.db = db
        simp only [requested] at hrequested
        split at hrequested
        · rename_i hok
          cases hrequested
          exact put_contact_ok hok
        · cases hrequested
    | confirmationGet cid =>
        cases hrequested
        exact confirmationGet_db svc w req cid
    | confirm token => cases hrequested
    | _ => exact hcall.elim
  rw [hdb]
  exact ⟨i.contact, (of_one_byId (issue_contact hissue).1).1, hid, rfl⟩

/-! ### Runs -/

theorem tokensSent_next (p : World × List Issue) (e : Event) (h : TokensSent p)
    (he : e.call.OnAddresses ∧ AddressStays svc p e) : TokensSent ((watchedTokens svc).next p e) := by
  obtain ⟨hcall, hstays⟩ := he
  intro k ses d hk hparam
  have hserves := handle_serves svc (p.1.at e) e.req e.call
  rcases hserves.opens k ses d hk with hold | hopened
  · obtain ⟨i, hi, htoken, hnonce, rfl, id, hid, hsent⟩ := h k ses d hold hparam
    refine ⟨i, mem_recordIssued hi, htoken, hnonce, rfl, id, hid, fun hlive => ?_⟩
    have hlive : p.1.now + e.elapsed < d := hserves.now.symm.trans_lt hlive
    refine handle_address hcall (hsent (by omega)) ?_
    intro body checked contact db' hput hok hchecked hfound hwritten
    rcases hstays id body checked contact db' hput hok hchecked hfound hwritten with hsame | hnone
    · exact hsame
    · -- the session of the token is one that the update finds
      refine absurd ?_ hparam
      have howner : i.owner = some id := by rw [Issue.owner, hid, Val.text_str]
      have hfind : SessionManager.find p.1.redis (p.1.now + e.elapsed) (some id) i.nonce none =
          some ses :=
        SessionManager.find_eq_some.mpr ⟨⟨d, howner ▸ hold, hlive⟩, hnonce⟩
      have hget := hnone i.nonce
      rw [SessionManager.get, hfind] at hget
      exact hget
  · obtain ⟨i, hissued, htoken, hnonce, hkey, id, hid⟩ := hopened.param hparam
    refine ⟨i, ?_, htoken, hnonce, hkey, id, hid, fun _ => issuedBy_address hcall hissued hid⟩
    change i ∈ recordIssued svc p.2 p.1 e
    rw [recordIssued, hissued]
    exact List.mem_cons_self

/-- A token that passes the checks was made for the address that its contact has. -/
theorem sent_of_check {issued : List Issue} {token nonce text : String}
    (h : TokensSent (w, issued)) (hcheck : check svc w token = .ok (id, text, nonce, contact)) :
    ∃ i ∈ issued, i.token = token ∧ i.contact "id" = .str id ∧
      HasAddress w.db id (i.contact "info") := by
  obtain ⟨-, hparam, -⟩ := check_ok hcheck
  unfold SessionManager.get at hparam
  split at hparam
  · rename_i ses hfind
    obtain ⟨⟨d, hk, hlive⟩, hjti⟩ := SessionManager.find_eq_some.mp hfind
    obtain ⟨i, hi, htoken, hnonce, hkey, cid, hcid, hsent⟩ := h _ ses d hk (by rw [hparam]; nofun)
    have htoken : token = i.token := Val.str.inj (hparam.symm.trans htoken)
    have hnonce : nonce = i.nonce := Val.str.inj (hjti.symm.trans hnonce)
    rw [← hnonce] at hkey
    have howner : id = (i.contact "id").text := SessionManager.owner_eq_of_key hkey
    rw [hcid, Val.text_str] at howner
    subst howner
    exact ⟨i, hi, htoken.symm, hcid, hsent hlive⟩
  · cases hparam

theorem confirms_sent (p : World × List Issue) (e : Event) (h : TokensSent p) :
    ConfirmsSent svc p e := by
  intro token hcall hok
  have hout : (watchedTokens svc).out p e = (confirm svc (p.1.at e) e.req.amb token false).2 := by
    change (handle svc (p.1.at e) e.req e.call).2 = _
    rw [hcall]
    rfl
  have hnext : ((watchedTokens svc).next p e).1.db =
      (confirm svc (p.1.at e) e.req.amb token false).1.db := by
    change (handle svc (p.1.at e) e.req e.call).1.db = _
    rw [hcall]
    rfl
  rw [hout] at hok
  rcases confirm_db svc (p.1.at e) e.req.amb token false with
    ⟨-, hrefused⟩ | ⟨id, info, nonce, contact, hcheck, hdb⟩
  · exact absurd hok hrefused
  · have hsent : TokensSent (p.1.at e, p.2) := by
      intro k ses d hk hparam
      obtain ⟨i, hi, htoken, hnonce, hkey, id, hid, hsent⟩ := h k ses d hk hparam
      refine ⟨i, hi, htoken, hnonce, hkey, id, hid, fun hlive => hsent ?_⟩
      have hlive : p.1.now + e.elapsed < d := hlive
      omega
    obtain ⟨i, hi, htoken, hid, haddress⟩ := sent_of_check hsent hcheck
    obtain ⟨row, hrow, hrowid, hinfo⟩ := haddress
    have hcontacts : ((watchedTokens svc).next p e).1.db.rows .contact =
        (p.1.db.rows .contact).map fun row =>
          if hasId id row then Function.update row "status" (.str "active") else row := by
      rw [hnext]
      exact (congrFun hdb .contact).trans (activate_contacts p.1.db id (contact "uid"))
    refine ⟨i, hi, htoken, ⟨Function.update row "status" (.str "active"), ?_, ?_, ?_, ?_⟩, ?_⟩
    · rw [hcontacts, List.mem_map]
      exact ⟨row, hrow, if_pos (decide_eq_true hrowid)⟩
    · rw [Function.update_of_ne (by decide), hrowid, hid]
    · rw [Function.update_self]
    · rw [Function.update_of_ne (by decide), hinfo]
    · intro other hother hne
      rw [hcontacts, List.mem_map] at hother
      obtain ⟨old, hold, rfl⟩ := hother
      split_ifs at hne ⊢ with hsame
      · refine absurd ?_ hne
        rw [Function.update_of_ne (by decide), hid]
        exact of_decide_eq_true hsame
      · exact hold

/-- From a store without tokens on: as long as no address is changed while a token of the contact can still
be used, every confirmation that succeeds is one of the address that its token was sent to. -/
theorem confirms_along_sent {es : List Event} (hstart : NoTokens w.redis)
    (h : (watchedTokens svc).Along (fun p e => e.call.OnAddresses ∧ AddressStays svc p e) (w, []) es) :
    (watchedTokens svc).Along (ConfirmsSent svc) (w, []) es := by
  refine h.of_invariant tokensSent_next (fun p e hp _ => confirms_sent p e hp) ?_
  intro k ses d hk hparam
  exact absurd (hstart k ses d hk) hparam

/-- A token that was sent to the address of the other user comes back. -/
def comesBack : Event := ofSecond "n3" (.confirm "101|x-c0002:second@example.com:noncen1")

/-- A token is requested and used, and the contact is updated in between. -/
def updatedRun (body : Dict) : List Event :=
  [ofSecond "n1" (.confirmationGet "x-c0002"), ofSecond "n2" (.put .contact "x-c0002" body), comesBack]

/-- The state and the issued tokens when the token comes back. -/
def afterUpdate (body : Dict) : World × List Issue :=
  (watchedTokens Seed.service).run (quotaWorld, []) ((updatedRun body).take 2)

/-- A new label, and no other change. -/
def relabelled : Dict := Dict.ofList [("label", .str "home")]

/-- A new address. -/
def moved : Dict := Dict.ofList [("type", .str "email"), ("info", .str "moved@example.com")]

theorem quotaWorld_noTokens : NoTokens quotaWorld.redis := by
  intro k ses d hk
  obtain ⟨-, rfl, -⟩ | hold := Expiring.set_cases hk
  · decide +kernel
  · cases hold

theorem contactInfo_relabelled : BasicCrud.contactInfo Seed.service relabelled = .ok relabelled := by
  unfold BasicCrud.contactInfo
  rw [if_neg (by decide), if_neg (by decide)]

/-- A new label leaves the address, and the token is accepted for it. -/
theorem relabelled_sent :
    ((watchedTokens Seed.service).out (afterUpdate relabelled) comesBack).status = 200 ∧
    (watchedTokens Seed.service).Along (ConfirmsSent Seed.service) (quotaWorld, [])
      (updatedRun relabelled) := by
  refine ⟨by decide +kernel, confirms_along_sent quotaWorld_noTokens ⟨⟨trivial, ?_⟩, ⟨rfl, ?_⟩,
    ⟨trivial, ?_⟩, trivial⟩⟩
  · intro id body checked contact db' hcall
    cases hcall
  · intro id body checked contact db' hcall _ hchecked _ hinfo
    obtain ⟨-, -, rfl⟩ := Call.put.inj hcall
    obtain rfl : relabelled = checked := Except.ok.inj (contactInfo_relabelled.symm.trans hchecked)
    exact absurd hinfo (by decide)
  · intro id body checked contact db' hcall
    cases hcall

/-- The token that went to the old address makes the new one active. -/
theorem movedAddress_confirmed : ¬ ∀ (svc : Service) (w : World) (es : List Event), NoTokens w.redis →
    (watchedTokens svc).Along (fun _ e => e.call.OnAddresses) (w, []) es →
    (watchedTokens svc).Along (ConfirmsSent svc) (w, []) es := by
  intro hall
  have hrun := hall Seed.service quotaWorld (updatedRun moved) quotaWorld_noTokens
    ⟨trivial, rfl, trivial, trivial⟩
  have hlast : ConfirmsSent Seed.service (afterUpdate moved) comesBack := hrun.2.2.1
  have hmoved : ∀ i ∈ (afterUpdate moved).2, ∀ contact ∈ ((watchedTokens Seed.service).next
      (afterUpdate moved) comesBack).1.db.rows .contact,
      i.token = "101|x-c0002:second@example.com:noncen1" → contact "id" = i.contact "id" →
        contact "info" ≠ i.contact "info" := by
    decide +kernel
  obtain ⟨i, hi, htoken, hactivates⟩ := hlast _ rfl (by decide +kernel)
  obtain ⟨contact, hcontact, hid, -, hinfo⟩ := hactivates.active
  exact hmoved i hi contact hcontact htoken hid hinfo

end Apicrud
