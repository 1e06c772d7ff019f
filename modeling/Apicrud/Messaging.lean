import Apicrud.Quotas
import Apicrud.Seed

/-! # Messages to contacts

`Messaging.send` looks up the recipient, a contact or the primary contact of a user, and a contact of the
sender of the same type; it opens the SMTP session, takes the message off the sender's daily and monthly
quota, and hands it over.  Templates, the MIME encoding and the SMTP server are parameters.

Asked for a user, it goes on with the id of the contact in the place of the record, and raises at the first
attribute it reads: `sendToUser_differs`. -/

namespace Apicrud

open Relational

/-- The reasons of `APIcrudSendError`. -/
inductive SendError where
  | notFound (toId toUid : Option String)
  | noFrom (frm : String)
  | unsupported (type : Val)
  | dailyLimit
  | credential (reason : String)

/-- The texts. -/
def SendError.message : SendError → String
  | notFound toId toUid => "Recipient cid=" ++ (Val.ofOption toId).text ++ ", uid=" ++
      (Val.ofOption toUid).text ++ " not found"
  | noFrom frm => "uid=" ++ frm ++ " cannot get From address"
  | unsupported type => "unsupported type=" ++ type.text
  | dailyLimit => "daily limit exceeded"
  | credential reason => "Credential problem: " ++ reason

/-- What `send` raises. -/
inductive SendExc where
  | sendError (e : SendError)
  /-- `APIcrudFormatError` -/
  | formatError
  /-- `AttributeError`: a text has no such attribute -/
  | noAttribute (name : String)
  | other

/-- A message as the SMTP session gets it. -/
structure Mail where
  sender : Val
  dest : Val
  body : String

/-- A message before it is encoded. -/
structure Mime where
  headers : List (String × String)
  parts : List String

/-- What becomes of a template: a text, or it is not found, or it raises. -/
inductive Rendered where
  | text (s : String)
  | missing
  | raises

/-- `AccountSettings` -/
structure MailSettings where
  approvedSenders : List Val
  senderEmail : Val
  administratorId : String
  smtpCredentialId : Val
  url : Val
  lang : Val
  tz : Val

/-- Functions that are not part of the repository. -/
structure MailLib where
  /-- `smtplib.SMTP(..).starttls(..)` does not raise -/
  connects : Bool
  /-- `session.login`; a text where it raises -/
  login : Val → Val → Option String
  /-- `session.sendmail` does not raise -/
  accepts : Mail → Bool
  /-- the template in a language, by jinja2 -/
  render : String → Val → Dict → Rendered
  /-- `format_datetime(strptime(starts), locale=lang, tzinfo=tz)`; `none` where it raises -/
  formatStarts : Val → Val → Val → Option Val
  /-- `mime.as_string()`, with a date and a message id -/
  asString : Mime → String

/-- What `Messaging` reads besides the database and redis. -/
structure MailConf where
  settings : MailSettings
  lib : MailLib
  metrics : MetricConf
  /-- `Grants().get(name, uid=uid)` -/
  limits : String → String → ℤ
  /-- `CARRIER_GATEWAYS` -/
  gateways : List (String × String)
  appname : String

/-- What `send` works on: `connected` is whether `self.smtp` is open, `handed` what it was given. -/
structure Post where
  db : Database
  meters : Meters
  now : ℕ
  connected : Bool
  handed : List Mail

/-- The types of contact that messages are sent to. -/
inductive MailKind where
  | email
  | sms
deriving DecidableEq

namespace MailKind

/-- `to_contact.type in ('email', 'sms')` -/
def ofType (type : Val) : Option MailKind :=
  if type = .str "email" then some email else if type = .str "sms" then some sms else none

/-- The grants for messages of the type. -/
def daily : MailKind → String
  | email => "email_daily_total"
  | sms => "sms_daily_total"

def monthly : MailKind → String
  | email => "email_monthly_total"
  | sms => "sms_monthly_total"

end MailKind

namespace Messaging

variable (conf : MailConf)

/-! ### Formats -/

/-- `_render_template` -/
def renderTemplate (template : Option String) (locale : Val) (args : Dict) : Except SendExc String :=
  match template with
  | none => .error .other
  | some template =>
      match conf.lib.render template locale ((args.set "siteurl" conf.settings.url).set "appname"
        (.str conf.appname)) with
      | .text s => .ok s
      | .missing => .error .formatError
      | .raises => .error .other

/-- An item of the profile of the recipient, or the default. -/
def profileItem (db : Database) (uid : Val) (item : String) (default : Val) : Except SendExc Val :=
  match one (filterBy [("uid", uid), ("item", .str item)] (db.rows .profile)) with
  | .ok row => .ok (row "value")
  | .error .noResultFound => .ok default
  | .error .multipleResultsFound => .error .other

/-- `contact.owner.name` -/
def ownerName (db : Database) (contact : Row) : Except SendExc Val :=
  match ownerOf db contact with
  | some owner => .ok (owner "name")
  | none => .error .other

/-- A keyword argument is given twice. -/
def Repeats (kwargs : Dict) (names : List String) : Prop := ∃ name ∈ names, name ∈ kwargs

instance (kwargs : Dict) (names : List String) : Decidable (Repeats kwargs names) :=
  inferInstanceAs (Decidable (∃ name ∈ names, _))

/-- `MessageFormat.sms` -/
def sms (db : Database) (template : Option String) (frm contact : Row) (kwargs : Dict) :
    Except SendExc String := do
  let lang ← profileItem db (contact "uid") "lang" conf.settings.lang
  let name ← ownerName db frm
  if Repeats kwargs ["template_name", "locale", "selector", "sender"] then .error .other
  else renderTemplate conf template lang ((kwargs.set "sender" name).set "selector" (.str "sms"))

/-- `'%s <%s>' % (name, address)` -/
def mailbox (name address : Val) : String := name.text ++ " <" ++ address.text ++ ">"

/-- The date of an event, in the recipient's language and time zone. -/
def withStarts (kwargs : Dict) (lang tz : Val) (params : Dict) : Except SendExc Dict :=
  if "starts" ∈ kwargs then
    match conf.lib.formatStarts (kwargs.get "starts") lang tz with
    | some starts => .ok (params.set "starts_formatted" starts)
    | none => .error .other
  else .ok params

/-- The headers: there is a `Reply-To` where the sender's own address is not the one that sends. -/
def mimeHeaders (frm contact : Row) (name toName senderEmail : Val) (subject : String) :
    List (String × String) :=
  ("From", mailbox name senderEmail) ::
    (if frm "info" ≠ senderEmail then [("Reply-To", mailbox name (frm "info"))] else []) ++
    [("To", mailbox toName (contact "info")), ("Subject", subject)]

/-- The message with its two parts, as a text. -/
def emailText (db : Database) (template : Option String) (frm : Row) (senderEmail : Val) (contact : Row)
    (attachments : List String) (kwargs : Dict) : Except SendExc String := do
  let name ← ownerName db frm
  let tz ← profileItem db (contact "uid") "tz" conf.settings.tz
  let lang ← profileItem db (contact "uid") "lang" conf.settings.lang
  let params ← withStarts conf kwargs lang tz (kwargs.set "sender" name)
  let toName ← ownerName db contact
  let subject ← renderTemplate conf template lang (kwargs.set "selector" (.str "subject"))
  let text ← renderTemplate conf template lang (params.set "selector" (.str "email"))
  let footer ← renderTemplate conf (some "footer") lang (params.set "selector" (.str "email"))
  let html ← renderTemplate conf template lang (params.set "selector" (.str "html"))
  let htmlFooter ← renderTemplate conf (some "footer") lang (params.set "selector" (.str "html"))
  pure (conf.lib.asString ⟨mimeHeaders frm contact name toName senderEmail subject,
    [text ++ footer, html ++ htmlFooter] ++ attachments⟩)

/-- `MessageFormat.email`, called with the id of the contact among its arguments. -/
def email (db : Database) (template : Option String) (frm : Row) (senderEmail : Val) (contact : Row)
    (attachments : List String) (kwargs : Dict) : Except SendExc String :=
  if Repeats kwargs ["sender_email", "contact_id", "sender", "template_name", "locale", "selector"] then
    .error .other
  else emailText conf db template frm senderEmail contact attachments
    (kwargs.set "contact_id" (contact "id"))

/-! ### Contacts -/

/-- What `to_contact` is: the record, or its id. -/
inductive Recipient where
  | record (contact : Row)
  | id (id : Val)

/-- The first attribute that is read. -/
def Recipient.contact : Recipient → Except SendExc Row
  | record contact => .ok contact
  | id _ => .error (.noAttribute "info")

/-- The active e-mail contacts of a user that are the user's identity. -/
def primaryContacts (db : Database) (toUid : Option String) : List Row :=
  (db.rows .contact).filter fun c => decide (c "type" = .str "email" ∧ c "status" = .str "active" ∧
    ∃ p ∈ db.rows .person, p "id" = c "uid" ∧ c "info" = p "identity" ∧ p "id" = Val.ofOption toUid ∧
      p "id" ≠ .none)

/-- `.one()` and the handler around it. -/
def oneOr (rows : List Row) (toId toUid : Option String) : Except SendExc Row :=
  match one rows with
  | .ok row => .ok row
  | .error .noResultFound => .error (.sendError (.notFound toId toUid))
  | .error .multipleResultsFound => .error .other

/-- The recipient; for a user, the code goes on with `.one().id`. -/
def recipient (db : Database) (toId toUid : Option String) : Except SendExc Recipient :=
  if toId.getD "" ≠ "" then (oneOr (byId db .contact (toId.getD "")) toId toUid).map .record
  else (oneOr (primaryContacts db toUid) toId toUid).map fun contact => .id (contact "id")

/-- `Contact.rank` -/
def rank (contact : Row) : ℤ :=
  match contact "rank" with
  | .int rank => rank
  | _ => 0

/-- The contacts of a sender that may be used. -/
def usable (db : Database) (frm : String) : List Row :=
  (db.rows .contact).filter fun c => decide (c "uid" = .str frm ∧
    (c "status" = .str "active" ∨ c "status" = .str "unconfirmed"))

/-- `.order_by(Contact.rank).first()` -/
def firstByRank (contacts : List Row) : Option Row :=
  (contacts.insertionSort fun a b => rank a ≤ rank b).head?

/-- `_get_frm` -/
def getFrm (db : Database) (frm : Option String) (type : Val) : Except SendExc (String × Row) :=
  let frm := frm.getD conf.settings.administratorId
  match firstByRank ((usable db frm).filter fun c => decide (c "type" = type)) with
  | some contact => .ok (frm, contact)
  | none =>
      match firstByRank (usable db frm) with
      | some contact => .ok (frm, contact)
      | none => .error (.sendError (.noFrom frm))

/-! ### Sending -/

/-- `smtp_session` -/
def smtpSession (db : Database) : Except SendExc Unit :=
  if conf.lib.connects then
    if conf.settings.smtpCredentialId.truthy then
      match one ((db.rows .credential).filter fun c => decide (c "id" = conf.settings.smtpCredentialId)) with
      | .ok cred =>
          match conf.lib.login (cred "key") (cred "secret") with
          | none => .ok ()
          | some reason => .error (.sendError (.credential reason))
      | .error _ => .error (.sendError (.credential "No row was found"))
    else .ok ()
  else .error .other

/-- A session, the open one or a new one. -/
def connect (p : Post) : Except SendExc Unit :=
  if p.connected then .ok () else smtpSession conf p.db

/-- One call of `store`. -/
def chargeOne (meters : Meters) (now : ℕ) (frm name : String) : Meters × Except SendExc Unit :=
  match Metrics.store conf.metrics meters now (conf.limits name frm) (some frm) name [] none with
  | (meters, some true) => (meters, .ok ())
  | (meters, some false) => (meters, .error (.sendError .dailyLimit))
  | (meters, none) => (meters, .error .other)

/-- `not metrics.store(daily) or not metrics.store(monthly)` -/
def charge (meters : Meters) (now : ℕ) (frm : String) (kind : MailKind) : Meters × Except SendExc Unit :=
  match chargeOne conf meters now frm kind.daily with
  | (meters, .ok ()) => chargeOne conf meters now frm kind.monthly
  | (meters, .error e) => (meters, .error e)

/-- The address and the body. -/
def compose (db : Database) (kind : MailKind) (sender : Val) (frm contact : Row) (template : Option String)
    (attachments : List String) (kwargs : Dict) : Except SendExc Mail :=
  match kind with
  | .sms =>
      match contact "info", contact "carrier" with
      | .str info, .str carrier =>
          match conf.gateways.lookup carrier with
          | some gateway => (sms conf db template frm contact kwargs).map
              (Mail.mk sender (.str (info ++ "@" ++ gateway)))
          | none => .error .other
      | _, _ => .error .other
  | .email => (email conf db template frm sender contact attachments kwargs).map (Mail.mk sender (contact "info"))

/-- The part of `send` that follows the opening of the session. -/
def deliver (p : Post) (kind : MailKind) (frm : String) (fromContact contact : Row) (sender : Val)
    (template : Option String) (attachments : List String) (kwargs : Dict) : Post × Except SendExc Unit :=
  match charge conf p.meters p.now frm kind with
  | (meters, .error e) => ({ p with meters := meters }, .error e)
  | (meters, .ok ()) =>
      match compose conf p.db kind sender fromContact contact template attachments kwargs with
      | .error e => ({ p with meters := meters }, .error e)
      | .ok mail => ({ p with meters := meters, handed := p.handed ++ [mail] },
          if conf.lib.accepts mail then .ok () else .error .other)

/-- The sender address. -/
def senderOf (fromContact : Row) : Val :=
  if fromContact "info" ∈ conf.settings.approvedSenders then fromContact "info"
  else conf.settings.senderEmail

/-- `send`, once the recipient is known. -/
def sendTo (p : Post) (frm : Option String) (contact : Row) (template : Option String)
    (attachments : List String) (kwargs : Dict) : Post × Except SendExc Unit :=
  if contact "status" = .str "disabled" then (p, .ok ())
  else
    match getFrm conf p.db frm (contact "type") with
    | .error e => (p, .error e)
    | .ok (frm, fromContact) =>
        match MailKind.ofType (contact "type") with
        | none => (p, .error (.sendError (.unsupported (contact "type"))))
        | some kind =>
            match connect conf p with
            | .error e => (p, .error e)
            | .ok () => deliver conf { p with connected := true } kind frm fromContact contact
                (senderOf conf fromContact) template attachments kwargs

/-- `send` -/
def send (p : Post) (frm toId toUid template : Option String) (attachments : List String) (kwargs : Dict) :
    Post × Except SendExc Unit :=
  match recipient p.db toId toUid >>= Recipient.contact with
  | .error e => (p, .error e)
  | .ok contact => sendTo conf p frm contact template attachments kwargs

/-! ### A user as the recipient -/

variable {conf} {db : Database} {p : Post} {toId toUid template : Option String} {kwargs : Dict}
  {contact person : Row}

/-- No attribute of a text is asked for. -/
def Plain {α : Type} (r : Except SendExc α) : Prop := ∀ name, r ≠ .error (.noAttribute name)

theorem Plain.ok {α : Type} (a : α) : Plain (.ok a) := nofun

theorem Plain.error {α β : Type} {e : SendExc} (h : Plain (.error e : Except SendExc α)) :
    Plain (.error e : Except SendExc β) :=
  fun name heq => h name (congrArg Except.error (Except.error.inj heq))

theorem Plain.bind {α β : Type} {r : Except SendExc α} {f : α → Except SendExc β} (h : Plain r)
    (hf : ∀ a, Plain (f a)) : Plain (r >>= f) := by
  cases r with
  | ok a => exact hf a
  | error e => exact h.error

theorem Plain.map {α β : Type} {r : Except SendExc α} (f : α → β) (h : Plain r) : Plain (r.map f) := by
  cases r with
  | ok a => nofun
  | error e => exact h.error

theorem renderTemplate_plain (locale : Val) (args : Dict) :
    Plain (renderTemplate conf template locale args) := by
  unfold renderTemplate
  cases template with
  | none => nofun
  | some template =>
      simp only
      split <;> nofun

theorem profileItem_plain (uid : Val) (item : String) (default : Val) :
    Plain (profileItem db uid item default) := by
  unfold profileItem
  split <;> nofun

theorem ownerName_plain (contact : Row) : Plain (ownerName db contact) := by
  unfold ownerName
  split <;> nofun

theorem sms_plain (frm : Row) : Plain (sms conf db template frm contact kwargs) := by
  refine (profileItem_plain _ _ _).bind fun lang => (ownerName_plain frm).bind fun name => ?_
  split_ifs
  · nofun
  · exact renderTemplate_plain _ _

theorem withStarts_plain (lang tz : Val) (params : Dict) : Plain (withStarts conf kwargs lang tz params) := by
  unfold withStarts
  split_ifs
  · split <;> nofun
  · nofun

theorem email_plain (frm : Row) (sender : Val) (attachments : List String) :
    Plain (email conf db template frm sender contact attachments kwargs) := by
  unfold email
  split_ifs
  · nofun
  · refine (ownerName_plain frm).bind fun name => (profileItem_plain _ _ _).bind fun tz =>
      (profileItem_plain _ _ _).bind fun lang => (withStarts_plain _ _ _).bind fun params =>
      (ownerName_plain contact).bind fun toName => ?_
    exact (renderTemplate_plain _ _).bind fun subject => (renderTemplate_plain _ _).bind fun text =>
      (renderTemplate_plain _ _).bind fun footer => (renderTemplate_plain _ _).bind fun html =>
      (renderTemplate_plain _ _).bind fun htmlFooter => Plain.ok _

theorem compose_plain (conf : MailConf) (db : Database) (kind : MailKind) (sender : Val) (frm contact : Row)
    (template : Option String) (attachments : List String) (kwargs : Dict) :
    Plain (compose conf db kind sender frm contact template attachments kwargs) := by
  unfold compose
  split
  · split
    · split
      · exact (sms_plain frm).map _
      · nofun
    · nofun
  · exact (email_plain frm sender attachments).map _

theorem getFrm_plain (conf : MailConf) (db : Database) (frm : Option String) (type : Val) : Plain (getFrm conf db frm type) := by
  unfold getFrm
  simp only
  split
  · nofun
  · split <;> nofun

theorem connect_plain (conf : MailConf) (p : Post) : Plain (connect conf p) := by
  unfold connect smtpSession
  split_ifs
  · nofun
  · split
    · split <;> nofun
    · nofun
  · nofun
  · nofun

theorem chargeOne_plain (conf : MailConf) (meters : Meters) (now : ℕ) (frm name : String) :
    Plain (chargeOne conf meters now frm name).2 := by
  unfold chargeOne
  split <;> nofun

theorem charge_plain (conf : MailConf) (meters : Meters) (now : ℕ) (frm : String) (kind : MailKind) :
    Plain (charge conf meters now frm kind).2 := by
  have hdaily := chargeOne_plain conf meters now frm kind.daily
  unfold charge
  split
  · exact chargeOne_plain _ _ _ _ _
  · rename_i e hcharge
    rw [hcharge] at hdaily
    exact hdaily.error

theorem deliver_plain (kind : MailKind) (frm : String) (fromContact : Row) (sender : Val)
    (attachments : List String) :
    Plain (deliver conf p kind frm fromContact contact sender template attachments kwargs).2 := by
  have hcharged := charge_plain conf p.meters p.now frm kind
  have hcomposed := compose_plain conf p.db kind sender fromContact contact template attachments kwargs
  unfold deliver
  split
  · rename_i e hcharge
    rw [hcharge] at hcharged
    exact hcharged.error
  · split
    · rename_i e hcompose
      rw [hcompose] at hcomposed
      exact hcomposed.error
    · simp only
      split_ifs <;> nofun

theorem sendTo_plain (frm : Option String) (attachments : List String) :
    Plain (sendTo conf p frm contact template attachments kwargs).2 := by
  have hfrm := getFrm_plain conf p.db frm (contact "type")
  have hopen := connect_plain conf p
  unfold sendTo
  by_cases hdisabled : contact "status" = .str "disabled"
  · rw [if_pos hdisabled]
    nofun
  · rw [if_neg hdisabled]
    split
    · rename_i e hget
      rw [hget] at hfrm
      exact hfrm.error
    · split
      · nofun
      · split
        · rename_i e hsession
          rw [hsession] at hopen
          exact hopen.error
        · exact deliver_plain _ _ _ _ _

/-- The record with an id is found by it. -/
theorem recipient_of_id {cid : String} (hcontact : contact ∈ db.rows .contact)
    (hid : contact "id" = .str cid) (hne : cid ≠ "") :
    recipient db (some cid) toUid = .ok (.record contact) := by
  unfold recipient oneOr
  rw [if_pos (by simpa using hne), Option.getD_some, byId_eq hcontact (by decide) hid]
  rfl

/-- The primary contact of a user: an active e-mail contact that is the user's identity. -/
structure Primary (db : Database) (person contact : Row) (uid cid : String) : Prop where
  person_id : person "id" = .str uid
  contact_id : contact "id" = .str cid
  owned : contact "uid" = .str uid
  type : contact "type" = .str "email"
  status : contact "status" = .str "active"
  info : contact "info" = person "identity"
  person_mem : person ∈ db.rows .person
  contact_mem : contact ∈ db.rows .contact

/-- There is but one. -/
theorem primaryContacts_eq {uid cid : String} (h : Primary db person contact uid cid) :
    primaryContacts db (some uid) = [contact] := by
  have hcontacts : ["info", "type"] ∈ schema.unique .contact := by decide
  have hsame : ∀ person' ∈ db.rows .person, person' "id" = .str uid → person' = person :=
    fun person' hmem hid => db.eq_of_column (by decide : ["id"] ∈ schema.unique .person) (by decide)
      hmem h.person_mem (hid.trans h.person_id.symm)
  have hidentity : person "identity" ≠ .none := db.ne_none h.person_mem (by decide)
  refine db.filter_key hcontacts (fun r _ r' _ hr hr' => ?_) h.contact_mem ?_
  · obtain ⟨htype, -, p, hp, -, hinfo, hid, -⟩ := of_decide_eq_true hr
    obtain ⟨htype', -, p', hp', -, hinfo', hid', -⟩ := of_decide_eq_true hr'
    rw [hsame p hp hid] at hinfo
    rw [hsame p' hp' hid'] at hinfo'
    refine ⟨fun c hc => ?_, fun c hc => ?_⟩
    all_goals
      rcases List.mem_cons.mp hc with rfl | hc
      on_goal 2 => obtain rfl := List.mem_singleton.mp hc
    · rw [hinfo]
      exact hidentity
    · rw [htype]
      nofun
    · rw [hinfo, hinfo']
    · rw [htype, htype']
  · refine decide_eq_true ⟨h.type, h.status, person, h.person_mem, ?_, h.info, h.person_id, ?_⟩
    · rw [h.person_id, h.owned]
    · rw [h.person_id]
      nofun

/-- Sending to a user raises before anything is done, which sending to the primary contact of the user
never does in this way. -/
theorem sendToUser_differs (conf : MailConf) (p : Post) (person contact : Row) (uid cid : String)
    (h : Primary p.db person contact uid cid) (frm template : Option String) (attachments : List String)
    (kwargs : Dict) :
    send conf p frm none (some uid) template attachments kwargs = (p, .error (.noAttribute "info")) ∧
      send conf p frm none (some uid) template attachments kwargs ≠
        send conf p frm (some cid) none template attachments kwargs := by
  have huser : send conf p frm none (some uid) template attachments kwargs =
      (p, .error (.noAttribute "info")) := by
    have hrecipient : recipient p.db none (some uid) = .ok (.id (contact "id")) := by
      unfold recipient oneOr
      rw [if_neg (by simp), primaryContacts_eq h]
      rfl
    unfold send
    rw [hrecipient]
    rfl
  refine ⟨huser, fun hsame => ?_⟩
  rw [huser] at hsame
  have hplain : Plain (send conf p frm (some cid) none template attachments kwargs).2 := by
    unfold send
    by_cases hne : cid = ""
    · have hrecipient : recipient p.db (some cid) none = .error (.sendError (.notFound (some cid) none)) := by
        have hnone : primaryContacts p.db none = [] := by
          refine List.filter_eq_nil_iff.mpr fun c _ hc => ?_
          obtain ⟨-, -, p', -, -, -, hid, hne⟩ := of_decide_eq_true hc
          exact hne hid
        unfold recipient oneOr
        rw [if_neg (by simpa using hne), hnone]
        rfl
      rw [hrecipient]
      nofun
    · rw [recipient_of_id h.contact_mem h.contact_id hne]
      exact sendTo_plain _ _
  exact hplain "info" (congrArg Prod.snd hsame).symm

/-! ### The seeded administrator -/

/-- The settings of the seeded installation, and a server that takes every message. -/
def seedMail : MailConf where
  settings := ⟨[], .str "user@example.com", "x-23450001", .none, .none, .str "en_US", .str "UTC"⟩
  lib := {
    connects := true
    login := fun _ _ => none
    accepts := fun _ => true
    render := fun template _ _ => .text template
    formatStarts := fun starts _ _ => some starts
    asString := fun mime => Text.join mime.parts ' ' }
  metrics := {
    metrics := fun name =>
      if name = "email_daily_total" ∨ name = "sms_daily_total" then some {}
      else if name = "email_monthly_total" ∨ name = "sms_monthly_total" then some { period := .month }
      else none
    instanceId := "i-1" }
  limits name _ := if name = "email_daily_total" ∨ name = "sms_daily_total" then 200 else 1000
  gateways := [("att", "txt.att.net")]
  appname := "Example"

/-- Nothing has been sent yet. -/
def seedPost (meters : Meters) : Post where
  db := Seed.database
  meters := meters
  now := 100
  connected := false
  handed := []

/-- The notification of the administrator raises; sent to the contact, it arrives. -/
theorem notification_raises :
    (send seedMail (seedPost Keyspace.empty) none none (some "x-23450001") (some "usage_notify") []
      ∅).1.handed.length = 0 ∧
    (send seedMail (seedPost Keyspace.empty) none (some "x-4566a239") none (some "usage_notify") []
      ∅).1.handed.length = 1 ∧
    send seedMail (seedPost Keyspace.empty) none none (some "x-23450001") (some "usage_notify") [] ∅ ≠
      send seedMail (seedPost Keyspace.empty) none (some "x-4566a239") none (some "usage_notify") [] ∅ := by
  have huser : (send seedMail (seedPost Keyspace.empty) none none (some "x-23450001")
      (some "usage_notify") [] ∅).1.handed.length = 0 := by decide +kernel
  have hcontact : (send seedMail (seedPost Keyspace.empty) none (some "x-4566a239") none
      (some "usage_notify") [] ∅).1.handed.length = 1 := by decide +kernel
  refine ⟨huser, hcontact, fun hsame => ?_⟩
  rw [hsame, hcontact] at huser
  cases huser

theorem sendToUser_differs_admin :
    send seedMail (seedPost Keyspace.empty) none none (some "x-23450001") (some "usage_notify") [] ∅ =
      (seedPost Keyspace.empty, .error (.noAttribute "info")) := by
  have hperson : ∃ person ∈ Seed.database.rows .person, person "id" = .str "x-23450001" ∧
      person "identity" = .str "user@example.com" := by decide +kernel
  have hcontact : ∃ contact ∈ Seed.database.rows .contact, contact "id" = .str "x-4566a239" ∧
      contact "uid" = .str "x-23450001" ∧ contact "type" = .str "email" ∧
      contact "status" = .str "active" ∧ contact "info" = .str "user@example.com" := by decide +kernel
  obtain ⟨person, hmem, hid, hidentity⟩ := hperson
  obtain ⟨contact, hmem', hid', howned, htype, hstatus, hinfo⟩ := hcontact
  exact (sendToUser_differs seedMail (seedPost Keyspace.empty) person contact "x-23450001" "x-4566a239"
    ⟨hid, hid', howned, htype, hstatus, hinfo.trans hidentity.symm, hmem, hmem'⟩ none
    (some "usage_notify") [] ∅).1

end Messaging

end Apicrud
