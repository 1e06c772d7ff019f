import Apicrud.Messaging

/-! # What a message costs

A message is charged to the daily and then to the monthly quota of its sender, before it is composed.  When
only the monthly one is exhausted the daily one has been charged all the same.  `charged_iff` says when a
call of `send` hands over a message and charges both, or refuses it and charges neither. -/

namespace Apicrud

open Relational

namespace Metrics

variable {conf : MetricConf} {meters : Meters} {now : ℕ} {limit : ℤ} {uid : Option String} {name : String}
  {k : String}

/-- What is left of a grant: all of it, when there is no key or the key holds more. -/
def left (limit : ℤ) (current : Option ℤ) : ℤ :=
  match current with
  | none => limit
  | some current => if limit ≤ current then limit else current

/-- A call is refused. -/
def Exhausted (limit : ℤ) (current : Option ℤ) : Prop := credit limit current = .refuse

instance (limit : ℤ) (current : Option ℤ) : Decidable (Exhausted limit current) :=
  inferInstanceAs (Decidable (_ = _))

/-- The name is that of a grant for users. -/
def IsGrant (conf : MetricConf) (name : String) : Prop :=
  ∃ metric, conf.metrics name = some metric ∧ metric.style = .grant ∧ metric.scope = .user

theorem userKey_ne {name' : String} (h : name ≠ name') : userKey uid name ≠ userKey uid name' := by
  intro heq
  have hchars := congrArg String.toList heq
  simp only [userKey, key, String.toList_append, List.append_assoc] at hchars
  have hnames := List.append_cancel_left hchars
  rw [← List.append_assoc, ← List.append_assoc] at hnames
  exact h (String.toList_injective (List.append_cancel_right (List.append_cancel_right (by
    simpa only [List.append_assoc] using hnames))))

/-- A grant that is not exhausted is charged one. -/
theorem apply_spec (period : Period) (h : ¬ Exhausted limit (meters.get now k)) :
    ((credit limit (meters.get now k)).apply meters now k limit period).2 = true ∧
    left limit (((credit limit (meters.get now k)).apply meters now k limit period).1.get now k) =
      left limit (meters.get now k) - 1 ∧
    ∀ k' ≠ k, ((credit limit (meters.get now k)).apply meters now k limit period).1 k' = meters k' := by
  cases hcredit : credit limit (meters.get now k) with
  | refuse => exact absurd hcredit h
  | renew =>
      have hget : (meters.set k (limit - 1) (period.seconds.map (now + ·))).get now k =
          some (limit - 1) := by
        refine Keyspace.get_eq_some.mpr ⟨_, Keyspace.set_self .., fun d hd => ?_⟩
        obtain ⟨seconds, hseconds, rfl⟩ := Option.map_eq_some_iff.mp hd
        have hpos := Period.seconds_pos hseconds
        show now < now + seconds
        omega
      have hleft : left limit (meters.get now k) = limit := by
        rcases Option.eq_none_or_eq_some (meters.get now k) with hnone | ⟨current, hsome⟩
        · rw [hnone]
          rfl
        · rw [hsome] at hcredit ⊢
          simp only [credit] at hcredit
          by_cases hle : limit ≤ current
          · exact if_pos hle
          · rw [if_neg hle] at hcredit
            split_ifs at hcredit
      refine ⟨rfl, ?_, fun k' hk' => (Keyspace.set_apply ..).trans (if_neg hk')⟩
      rw [hleft]
      simp only [Credit.apply, hget, left]
      rw [if_neg (by omega)]
  | spend =>
      rcases Option.eq_none_or_eq_some (meters.get now k) with hnone | ⟨current, hsome⟩
      · rw [hnone] at hcredit
        cases hcredit
      · have hbelow : current < limit := by
          by_contra hle
          rw [hsome] at hcredit
          simp only [credit] at hcredit
          rw [if_pos (by omega)] at hcredit
          cases hcredit
        obtain ⟨expires, hentry, hset⟩ := Keyspace.incrBy_some hsome (-1)
        obtain ⟨expires', hentry', hlive⟩ := Keyspace.get_eq_some.mp hsome
        cases hentry.symm.trans hentry'
        have hget : (meters.incrBy now k (-1)).get now k = some (current + -1) := by
          rw [hset]
          exact Keyspace.get_eq_some.mpr ⟨_, Keyspace.set_self .., hlive⟩
        refine ⟨rfl, ?_, fun k' hk' => Keyspace.incrBy_of_ne meters now hk' (-1)⟩
        simp only [Credit.apply, hget, hsome, left]
        rw [if_neg (by omega), if_neg (by omega)]
        omega

end Metrics

namespace Messaging

open Metrics

variable {conf : MailConf} {p : Post} {kind : MailKind} {frm name : String} {meters : Meters} {now : ℕ}

/-- The key of a grant of the sender. -/
def counter (p : Post) (frm name : String) : Option ℤ := p.meters.get p.now (userKey (some frm) name)

/-- What is left of it. -/
def leftOf (conf : MailConf) (p : Post) (frm name : String) : ℤ :=
  left (conf.limits name frm) (counter p frm name)

/-- Nothing is left. -/
def ExhaustedFor (conf : MailConf) (p : Post) (frm name : String) : Prop :=
  Exhausted (conf.limits name frm) (counter p frm name)

instance (conf : MailConf) (p : Post) (frm name : String) : Decidable (ExhaustedFor conf p frm name) :=
  inferInstanceAs (Decidable (Exhausted _ _))

/-- Either one message is handed over and both counters go down by one, or the message is refused for an
exhausted quota and the counters are as they were. -/
def ChargedForSent (conf : MailConf) (p : Post) (frm : String) (kind : MailKind)
    (r : Post × Except SendExc Unit) : Prop :=
  (∃ mail, r.1.handed = p.handed ++ [mail] ∧
    leftOf conf r.1 frm kind.daily = leftOf conf p frm kind.daily - 1 ∧
    leftOf conf r.1 frm kind.monthly = leftOf conf p frm kind.monthly - 1) ∨
  (r.2 = .error (.sendError .dailyLimit) ∧ r.1.handed = p.handed ∧
    (ExhaustedFor conf p frm kind.daily ∨ ExhaustedFor conf p frm kind.monthly) ∧
    counter r.1 frm kind.daily = counter p frm kind.daily ∧
    counter r.1 frm kind.monthly = counter p frm kind.monthly)

/-! ### The charge -/

theorem chargeOne_exhausted (hgrant : IsGrant conf.metrics name)
    (h : Exhausted (conf.limits name frm) (meters.get now (userKey (some frm) name))) :
    chargeOne conf meters now frm name = (meters, .error (.sendError .dailyLimit)) := by
  obtain ⟨metric, hmetric, hstyle, hscope⟩ := hgrant
  unfold chargeOne
  rw [store_eq hmetric hstyle hscope, h]
  rfl

theorem chargeOne_ok (hgrant : IsGrant conf.metrics name)
    (h : ¬ Exhausted (conf.limits name frm) (meters.get now (userKey (some frm) name))) :
    ∃ meters', chargeOne conf meters now frm name = (meters', .ok ()) ∧
      left (conf.limits name frm) (meters'.get now (userKey (some frm) name)) =
        left (conf.limits name frm) (meters.get now (userKey (some frm) name)) - 1 ∧
      ∀ k ≠ userKey (some frm) name, meters' k = meters k := by
  obtain ⟨metric, hmetric, hstyle, hscope⟩ := hgrant
  obtain ⟨htrue, hleft, hother⟩ := apply_spec metric.period h
  refine ⟨_, ?_, hleft, hother⟩
  unfold chargeOne
  rw [store_eq hmetric hstyle hscope, htrue]

theorem daily_ne_monthly (kind : MailKind) : kind.daily ≠ kind.monthly := by
  cases kind <;> decide

/-- The three ways that a charge ends. -/
theorem charge_cases (hdaily : IsGrant conf.metrics kind.daily) (hmonthly : IsGrant conf.metrics kind.monthly)
    (p : Post) (frm : String) :
    (ExhaustedFor conf p frm kind.daily ∧
      charge conf p.meters p.now frm kind = (p.meters, .error (.sendError .dailyLimit))) ∨
    (¬ ExhaustedFor conf p frm kind.daily ∧ ExhaustedFor conf p frm kind.monthly ∧
      ∃ meters', charge conf p.meters p.now frm kind = (meters', .error (.sendError .dailyLimit)) ∧
        leftOf conf { p with meters := meters' } frm kind.daily = leftOf conf p frm kind.daily - 1) ∨
    (¬ ExhaustedFor conf p frm kind.daily ∧ ¬ ExhaustedFor conf p frm kind.monthly ∧
      ∃ meters', charge conf p.meters p.now frm kind = (meters', .ok ()) ∧
        leftOf conf { p with meters := meters' } frm kind.daily = leftOf conf p frm kind.daily - 1 ∧
        leftOf conf { p with meters := meters' } frm kind.monthly =
          leftOf conf p frm kind.monthly - 1) := by
  have hkeys : userKey (some frm) kind.daily ≠ userKey (some frm) kind.monthly :=
    userKey_ne (daily_ne_monthly kind)
  by_cases hd : ExhaustedFor conf p frm kind.daily
  · refine Or.inl ⟨hd, ?_⟩
    unfold charge
    rw [chargeOne_exhausted hdaily hd]
  obtain ⟨meters₁, hfirst, hleft₁, hother₁⟩ := chargeOne_ok hdaily hd
  -- the first charge leaves the other key alone
  have hget₁ : meters₁.get p.now (userKey (some frm) kind.monthly) = counter p frm kind.monthly :=
    Keyspace.get_congr (hother₁ _ hkeys.symm) p.now
  by_cases hm : ExhaustedFor conf p frm kind.monthly
  · refine Or.inr (Or.inl ⟨hd, hm, meters₁, ?_, hleft₁⟩)
    have hm₁ : Exhausted (conf.limits kind.monthly frm)
        (meters₁.get p.now (userKey (some frm) kind.monthly)) := by
      rw [hget₁]
      exact hm
    unfold charge
    rw [hfirst]
    exact chargeOne_exhausted hmonthly hm₁
  · have hm₁ : ¬ Exhausted (conf.limits kind.monthly frm)
        (meters₁.get p.now (userKey (some frm) kind.monthly)) := by
      rw [hget₁]
      exact hm
    obtain ⟨meters₂, hsecond, hleft₂, hother₂⟩ := chargeOne_ok hmonthly hm₁
    refine Or.inr (Or.inr ⟨hd, hm, meters₂, ?_, ?_, ?_⟩)
    · unfold charge
      rw [hfirst]
      exact hsecond
    · unfold leftOf counter
      rw [Keyspace.get_congr (m := meters₂) (hother₂ _ hkeys)]
      exact hleft₁
    · rw [hget₁] at hleft₂
      exact hleft₂

/-! ### Sending -/

/-- The call gets as far as the charge: the recipient is not disabled, the sender has a contact, and there is
a session. -/
structure Sendable (conf : MailConf) (p : Post) (frm : Option String) (contact : Row) : Prop where
  enabled : contact "status" ≠ .str "disabled"
  sender : ∃ r, getFrm conf p.db frm (contact "type") = .ok r
  session : connect conf p = .ok ()

/-- The address and the text of the message can be made. -/
def Composes (conf : MailConf) (p : Post) (kind : MailKind) (frm : Option String) (contact : Row)
    (template : Option String) (attachments : List String) (kwargs : Dict) : Prop :=
  ∃ sender fromContact mail, getFrm conf p.db frm (contact "type") = .ok (sender, fromContact) ∧
    compose conf p.db kind (senderOf conf fromContact) fromContact contact template attachments kwargs =
      .ok mail

/-- A state in which nothing was handed over does not meet the first alternative, and a state with
the same counters does not either. -/
theorem not_charged {r : Post × Except SendExc Unit} (hhanded : r.1.handed = p.handed)
    (hother : r.2 ≠ .error (.sendError .dailyLimit)) : ¬ ChargedForSent conf p frm kind r := by
  rintro (⟨mail, hmail, -⟩ | ⟨hrefused, -⟩)
  · have hlength := congrArg List.length (hhanded.symm.trans hmail)
    simp at hlength
  · exact hother hrefused

theorem getFrm_fst {frm : Option String} {type : Val} {r : String × Row}
    (h : getFrm conf p.db frm type = .ok r) : r.1 = frm.getD conf.settings.administratorId := by
  unfold getFrm at h
  simp only at h
  split at h
  · cases h
    rfl
  · split at h
    · cases h
      rfl
    · cases h

/-- No other step refuses for the quota. -/
theorem getFrm_ne (db : Database) (frm : Option String) (type : Val) :
    getFrm conf db frm type ≠ .error (.sendError .dailyLimit) := by
  unfold getFrm
  simp only
  split
  · nofun
  · split <;> nofun

theorem connect_ne : connect conf p ≠ .error (.sendError .dailyLimit) := by
  unfold connect smtpSession
  split_ifs
  · nofun
  · split
    · split <;> nofun
    · nofun
  · nofun
  · nofun

/-- What becomes of a message that can be sent. -/
theorem deliver_charged (hdaily : IsGrant conf.metrics kind.daily) (hmonthly : IsGrant conf.metrics kind.monthly)
    (p : Post) (frm : String) (fromContact contact : Row) (sender : Val) (template : Option String)
    (attachments : List String) (kwargs : Dict) :
    ChargedForSent conf p frm kind
        (deliver conf p kind frm fromContact contact sender template attachments kwargs) ↔
      ExhaustedFor conf p frm kind.daily ∨ (¬ ExhaustedFor conf p frm kind.monthly ∧
        ∃ mail, compose conf p.db kind sender fromContact contact template attachments kwargs = .ok mail) := by
  unfold deliver
  rcases charge_cases hdaily hmonthly p frm with
    ⟨hd, hcharge⟩ | ⟨hd, hm, meters', hcharge, hleft⟩ | ⟨hd, hm, meters', hcharge, hleft, hleft'⟩
  · rw [hcharge]
    exact iff_of_true (Or.inr ⟨rfl, rfl, Or.inl hd, rfl, rfl⟩) (Or.inl hd)
  · rw [hcharge]
    refine iff_of_false ?_ ?_
    · rintro (⟨mail, hmail, -⟩ | ⟨-, -, -, hkept, -⟩)
      · have hlength := congrArg List.length hmail
        simp at hlength
      · -- the daily counter has gone down
        have hsame : leftOf conf { p with meters := meters' } frm kind.daily = leftOf conf p frm kind.daily :=
          congrArg (left _) hkept
        omega
    · rintro (h | ⟨h, -⟩)
      · exact hd h
      · exact h hm
  · rw [hcharge]
    cases hcompose : compose conf p.db kind sender fromContact contact template attachments kwargs with
    | error e =>
        refine iff_of_false ?_ ?_
        · rintro (⟨mail, hmail, -⟩ | ⟨-, -, hexhausted, -⟩)
          · have hlength := congrArg List.length hmail
            simp at hlength
          · exact hexhausted.elim hd hm
        · rintro (h | ⟨-, mail, h⟩)
          · exact hd h
          · cases h
    | ok mail => exact iff_of_true (Or.inl ⟨mail, rfl, hleft, hleft'⟩) (Or.inr ⟨hm, mail, rfl⟩)

/-- A call for an e-mail or sms contact hands over one message and charges both counters, or refuses it and
charges none, just when it gets as far as the charge and then the daily quota is exhausted, or the
monthly one is not and the message can be composed. -/
theorem charged_iff (conf : MailConf) (p : Post) (frm toId toUid template : Option String)
    (attachments : List String) (kwargs : Dict) (contact : Row) (kind : MailKind)
    (hto : recipient p.db toId toUid = .ok (.record contact))
    (hkind : MailKind.ofType (contact "type") = some kind)
    (hdaily : IsGrant conf.metrics kind.daily) (hmonthly : IsGrant conf.metrics kind.monthly) :
    let sender := frm.getD conf.settings.administratorId
    ChargedForSent conf p sender kind (send conf p frm toId toUid template attachments kwargs) ↔
      Sendable conf p frm contact ∧ (ExhaustedFor conf p sender kind.daily ∨
        (¬ ExhaustedFor conf p sender kind.monthly ∧
          Composes conf p kind frm contact template attachments kwargs)) := by
  intro sender
  have hsend : send conf p frm toId toUid template attachments kwargs =
      sendTo conf p frm contact template attachments kwargs := by
    unfold send
    rw [hto]
    rfl
  rw [hsend]
  unfold sendTo
  by_cases hdisabled : contact "status" = .str "disabled"
  · rw [if_pos hdisabled]
    exact iff_of_false (not_charged rfl nofun) fun h => h.1.enabled hdisabled
  rw [if_neg hdisabled]
  cases hfrm : getFrm conf p.db frm (contact "type") with
  | error e =>
      show ChargedForSent conf p sender kind (p, .error e) ↔ _
      refine iff_of_false (not_charged rfl fun heq => ?_) fun h => ?_
      · exact getFrm_ne _ _ _ (hfrm.trans (congrArg Except.error (Except.error.inj heq)))
      · obtain ⟨r, hr⟩ := h.1.sender
        cases hfrm.symm.trans hr
  | ok r =>
      obtain ⟨frm', fromContact⟩ := r
      obtain rfl : frm' = sender := getFrm_fst hfrm
      rw [hkind]
      cases hconnect : connect conf p with
      | error e =>
          show ChargedForSent conf p sender kind (p, .error e) ↔ _
          refine iff_of_false (not_charged rfl fun heq => ?_) fun h => ?_
          · exact connect_ne (hconnect.trans heq)
          · cases hconnect.symm.trans h.1.session
      | ok u =>
          have hdeliver := deliver_charged hdaily hmonthly { p with connected := true } sender fromContact
            contact (senderOf conf fromContact) template attachments kwargs
          have hcomposes : Composes conf p kind frm contact template attachments kwargs ↔
              ∃ mail, compose conf p.db kind (senderOf conf fromContact) fromContact contact template
                attachments kwargs = .ok mail := by
            constructor
            · rintro ⟨sender', fromContact', mail, hfrm', hmail⟩
              cases hfrm.symm.trans hfrm'
              exact ⟨mail, hmail⟩
            · rintro ⟨mail, hmail⟩
              exact ⟨_, _, mail, hfrm, hmail⟩
          rw [hcomposes]
          refine hdeliver.trans ⟨fun h => ⟨⟨hdisabled, ⟨_, hfrm⟩, hconnect⟩, h⟩, fun h => h.2⟩

/-! ### An exhausted month -/

/-- The administrator has sent half of the day's messages, and all of the month's. -/
def exhaustedMonth : Meters :=
  (Keyspace.empty.set (userKey (some "x-23450001") "email_daily_total") 100 (some 1000)).set
    (userKey (some "x-23450001") "email_monthly_total") 0 (some 1000)

theorem seedMail_grants (kind : MailKind) :
    IsGrant seedMail.metrics kind.daily ∧ IsGrant seedMail.metrics kind.monthly := by
  cases kind <;> exact ⟨⟨_, rfl, rfl, rfl⟩, ⟨_, rfl, rfl, rfl⟩⟩

/-- The message is refused, and one is taken off the day's. -/
theorem refused_and_charged :
    let r := send seedMail (seedPost exhaustedMonth) none (some "x-4566a239") none (some "welcome") [] ∅
    r.1.handed.length = 0 ∧ counter r.1 "x-23450001" "email_daily_total" = some 99 ∧
      ¬ ChargedForSent seedMail (seedPost exhaustedMonth) "x-23450001" .email r := by
  intro r
  have hhanded : r.1.handed.length = 0 := by decide +kernel
  have hdaily : counter r.1 "x-23450001" "email_daily_total" = some 99 := by decide +kernel
  refine ⟨hhanded, hdaily, ?_⟩
  rintro (⟨mail, hmail, -⟩ | ⟨-, -, -, hkept, -⟩)
  · rw [hmail, List.length_append] at hhanded
    cases hhanded
  · have hbefore : counter (seedPost exhaustedMonth) "x-23450001" "email_daily_total" = some 100 := by
      decide +kernel
    have hsame := hdaily.symm.trans (hkept.trans hbefore)
    revert hsame
    decide

/-- The contact of the administrator. -/
def adminContact : Row := Seed.row .contact [("id", .str "x-4566a239"), ("uid", .str "x-23450001"),
  ("type", .str "email"), ("info", .str "user@example.com"), ("muted", .bool true),
  ("privacy", .str "public"), ("status", .str "active")]

theorem adminContact_mem : adminContact ∈ Seed.database.rows .contact := List.mem_singleton_self _

/-- The first message of the administrator is sent and charged. -/
theorem first_message_charged :
    ChargedForSent seedMail (seedPost Keyspace.empty) "x-23450001" .email
      (send seedMail (seedPost Keyspace.empty) none (some "x-4566a239") none (some "welcome") [] ∅) := by
  have hfrm : getFrm seedMail Seed.database none (adminContact "type") =
      .ok ("x-23450001", adminContact) := rfl
  refine (charged_iff seedMail (seedPost Keyspace.empty) none (some "x-4566a239") none (some "welcome") [] ∅
    adminContact .email (recipient_of_id adminContact_mem (by decide +kernel) (by decide))
    (by decide +kernel) (seedMail_grants _).1 (seedMail_grants _).2).mpr
    ⟨⟨by decide +kernel, ⟨_, hfrm⟩, rfl⟩, Or.inr ⟨by decide +kernel, ?_⟩⟩
  have hcompose : (compose seedMail Seed.database .email (senderOf seedMail adminContact) adminContact
      adminContact (some "welcome") [] ∅).toOption.isSome := by decide +kernel
  cases hmail : compose seedMail Seed.database .email (senderOf seedMail adminContact) adminContact
      adminContact (some "welcome") [] ∅ with
  | error e =>
      rw [hmail] at hcompose
      cases hcompose
  | ok mail => exact ⟨_, _, mail, hfrm, hmail⟩

end Messaging

end Apicrud
