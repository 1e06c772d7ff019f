import Apicrud.Accepted
import Apicrud.Seed

/-! # The method of a login

Without a method, `account_login` tries the configured ones in turn and goes on with the first that
accepts.  The same loop runs over the letters of a method that is asked for by name, of which none is a
back-end: `methodSelection_iff` says that the choice is right just when no back-end that was asked for
would have accepted. -/

namespace Apicrud

open Relational

namespace SessionAuth

variable {svc : Service} {amb : Ambient} {username item : String} {password : Val} {w w' : World}
  {account : Row} {items : List String} {answer : Response}

/-! ### Back-ends in turn -/

/-- The login function of a back-end; the other names have none. -/
def backEnd (svc : Service) (amb : Ambient) (username : String) (password : Val) (w : World)
    (item : String) : Option (World × Except Response Row) :=
  if item = "local" then some (w, LocalFunc.login svc w.db username password)
  else if item = "ldap" then some (LdapFunc.login svc w amb)
  else none

/-- The state after all back-ends of a list have refused. -/
def refused (svc : Service) (amb : Ambient) (username : String) (password : Val) :
    World → List String → Option World
  | w, [] => some w
  | w, item :: items =>
      match backEnd svc amb username password w item with
      | none => refused svc amb username password w items
      | some (w, .error _) => refused svc amb username password w items
      | some (_, .ok _) => none

/-- The first back-end of the list that accepts, and what it leaves: those before it refuse. -/
def FirstAccepts (svc : Service) (amb : Ambient) (username : String) (password : Val) (w : World)
    (items : List String) (item : String) (account : Row) (w' : World) : Prop :=
  ∃ before after w₁, items = before ++ item :: after ∧
    refused svc amb username password w before = some w₁ ∧
    backEnd svc amb username password w₁ item = some (w', .ok account)

theorem tryMethods_cons (first : String) :
    tryMethods svc amb username password w answer (first :: items) =
      match backEnd svc amb username password w first with
      | none => tryMethods svc amb username password w answer items
      | some (w, .error answer) => tryMethods svc amb username password w answer items
      | some (w, .ok account) => (w, .ok (first, account)) := by
  rw [tryMethods]
  unfold backEnd
  split_ifs
  · cases LocalFunc.login svc w.db username password <;> rfl
  · rcases LdapFunc.login svc w amb with ⟨w₁, refusal | found⟩ <;> rfl
  · rfl

/-- The head of the list, or the first of the others once it has refused. -/
theorem firstAccepts_cons {first : String} :
    FirstAccepts svc amb username password w (first :: items) item account w' ↔
      (item = first ∧ backEnd svc amb username password w first = some (w', .ok account)) ∨
      ∃ w₁, refused svc amb username password w [first] = some w₁ ∧
        FirstAccepts svc amb username password w₁ items item account w' := by
  have hrefused : ∀ before : List String, refused svc amb username password w (first :: before) =
      (refused svc amb username password w [first]).bind fun w₁ =>
        refused svc amb username password w₁ before := by
    intro before
    simp only [refused]
    rcases backEnd svc amb username password w first with _ | ⟨w₁, refusal | found⟩ <;> rfl
  constructor
  · rintro ⟨before, after, w₁, hitems, hbefore, hitem⟩
    cases before with
    | nil =>
        obtain ⟨rfl, -⟩ := List.cons_eq_cons.mp hitems
        cases hbefore
        exact Or.inl ⟨rfl, hitem⟩
    | cons b before =>
        obtain ⟨rfl, rfl⟩ := List.cons_eq_cons.mp hitems
        rw [hrefused] at hbefore
        obtain ⟨w₂, hfirst, hbefore⟩ := Option.bind_eq_some_iff.mp hbefore
        exact Or.inr ⟨w₂, hfirst, before, after, w₁, rfl, hbefore, hitem⟩
  · rintro (⟨rfl, hitem⟩ | ⟨w₂, hfirst, before, after, w₁, rfl, hbefore, hitem⟩)
    · exact ⟨[], items, w, rfl, rfl, hitem⟩
    · refine ⟨first :: before, after, w₁, rfl, ?_, hitem⟩
      rw [hrefused, hfirst]
      exact hbefore

/-- The loop ends with the first back-end that accepts. -/
theorem tryMethods_eq_ok : tryMethods svc amb username password w answer items = (w', .ok (item, account)) ↔
    FirstAccepts svc amb username password w items item account w' := by
  induction items generalizing w answer with
  | nil =>
      refine iff_of_false nofun ?_
      rintro ⟨before, after, w₁, hitems, -⟩
      simp at hitems
  | cons first items ih =>
      rw [tryMethods_cons, firstAccepts_cons]
      simp only [refused]
      rcases backEnd svc amb username password w first with _ | ⟨w₁, refusal | found⟩
      · simp [ih]
      · simp [ih]
      · simp only [reduceCtorEq, false_and, exists_false, or_false, Prod.mk.injEq, Except.ok.injEq,
          Option.some.injEq]
        exact ⟨fun ⟨hw, hitem, haccount⟩ => ⟨hitem.symm, hw, haccount⟩,
          fun ⟨hitem, hw, haccount⟩ => ⟨hw, hitem.symm, haccount⟩⟩

/-- A list without a back-end accepts nobody. -/
theorem not_firstAccepts (h : ∀ item ∈ items, item ≠ "local" ∧ item ≠ "ldap") :
    ¬ FirstAccepts svc amb username password w items item account w' := by
  rintro ⟨before, after, w₁, rfl, -, hitem⟩
  obtain ⟨hlocal, hldap⟩ := h item (by simp)
  unfold backEnd at hitem
  rw [if_neg hlocal, if_neg hldap] at hitem
  cases hitem

/-! ### The choice -/

/-- The back-end returns 200 for these credentials. -/
def Returns200 (svc : Service) (amb : Ambient) (username : String) (password : Val) (w : World)
    (item : String) : Prop :=
  ∃ w' account, backEnd svc amb username password w item = some (w', .ok account)

/-- A back-end that was asked for by name decides; otherwise the first one of the list that accepts. -/
structure Selects (svc : Service) (w : World) (req : Request) (username : String) (password method otp : Val) :
    Prop where
  named : ∀ name, method = .str name → name ∈ svc.conf.authMethods → name = "local" ∨ name = "ldap" →
    ((∃ call, loginArgs svc w req username password method otp = some call) ↔
      Returns200 svc req.amb username password w name)
  unnamed : method = .none → ∀ w' account used,
    (loginArgs svc w req username password method otp = some (w', account, used) ↔
      ∃ item, used = .str item ∧
        FirstAccepts svc req.amb username password w svc.conf.authMethods item account w')

/-- The condition: no back-end was asked for that returns 200. -/
def NoneNamed (svc : Service) (w : World) (req : Request) (username : String) (password method : Val) : Prop :=
  ∀ name, method = .str name → name ∈ svc.conf.authMethods → name = "local" ∨ name = "ldap" →
    ¬ Returns200 svc req.amb username password w name

/-- The letters of a back-end's name are no back-ends. -/
theorem letters_refuse {name : String} (hname : name = "local" ∨ name = "ldap") :
    ∀ item ∈ methodItems svc (.str name), item ≠ "local" ∧ item ≠ "ldap" := by
  have hitems : methodItems svc (.str name) = (Val.str name).items.getD [] := by
    unfold methodItems
    rw [if_pos (by rcases hname with rfl | rfl <;> decide)]
  rw [hitems]
  rcases hname with rfl | rfl <;> decide

/-- The arguments of `login_accepted` when there is no one-time password to take. -/
theorem loginArgs_open {req : Request} {method otp : Val} (hopen : req.amb.lockedOut = false)
    (hpending : ¬ ((req.access svc w).HasRole "pendingtotp" ∨
      (otp.truthy ∧ (req.access svc w).apikeyId.isSome))) (used : Val) :
    loginArgs svc w req username password method otp = some (w', account, used) ↔
      (method ∉ svc.conf.authParams.map .str ∧
        (¬ method.truthy ∨ method ∈ svc.conf.authMethods.map .str)) ∧
      ∃ item, used = .str item ∧
        FirstAccepts svc req.amb username password w (methodItems svc method) item account w' := by
  unfold loginArgs
  simp only
  rw [if_neg (by rw [hopen]; decide), if_neg hpending]
  split_ifs with hprovider hlisted
  · exact iff_of_false nofun fun h => h.1.1 hprovider
  · rw [and_iff_right ⟨hprovider, hlisted⟩]
    rcases hr : tryMethods svc req.amb username password w (.message "access denied" 403)
      (methodItems svc method) with ⟨w₁, refusal | ⟨item, found⟩⟩
    · refine iff_of_false nofun ?_
      rintro ⟨item, -, hfirst⟩
      cases hr.symm.trans (tryMethods_eq_ok.mpr hfirst)
    · constructor
      · intro h
        cases h
        exact ⟨item, rfl, tryMethods_eq_ok.mp hr⟩
      · rintro ⟨item', rfl, hfirst⟩
        cases hr.symm.trans (tryMethods_eq_ok.mpr hfirst)
        rfl
  · exact iff_of_false nofun fun h => hlisted h.1.2

/-- A login selects the right method just when no back-end was asked for by name that returns 200. -/
theorem methodSelection_iff (svc : Service) (w : World) (req : Request) (username : String)
    (password method otp : Val) (hopen : req.amb.lockedOut = false)
    (hpending : ¬ ((req.access svc w).HasRole "pendingtotp" ∨
      (otp.truthy ∧ (req.access svc w).apikeyId.isSome))) :
    Selects svc w req username password method otp ↔ NoneNamed svc w req username password method := by
  have hnever : ∀ name, method = .str name → name = "local" ∨ name = "ldap" →
      ¬ ∃ call, loginArgs svc w req username password method otp = some call := by
    rintro name rfl hname ⟨⟨w', account, used⟩, hcall⟩
    obtain ⟨-, item, -, hfirst⟩ := (loginArgs_open hopen hpending used).mp hcall
    exact not_firstAccepts (letters_refuse hname) hfirst
  constructor
  · rintro ⟨hnamed, -⟩ name hmethod hlisted hname haccepts
    exact hnever name hmethod hname ((hnamed name hmethod hlisted hname).mpr haccepts)
  · intro hnone
    refine ⟨fun name hmethod hlisted hname => ?_, ?_⟩
    · exact iff_of_false (hnever name hmethod hname) (hnone name hmethod hlisted hname)
    · rintro rfl w' account used
      rw [loginArgs_open hopen hpending, and_iff_right ⟨by simp, Or.inl (by decide)⟩]
      exact Iff.rfl

/-! ### The administrator -/

/-- The right password, with the method by its name: access is denied. -/
theorem named_method_refused :
    (accountLogin Seed.service (Seed.world Seed.database) (Seed.request {} "r1") "admin" (.str "p@ssw0rd")
      (.str "local") .none).2.status = 403 ∧
    (accountLogin Seed.service (Seed.world Seed.database) (Seed.request {} "r1") "admin" (.str "p@ssw0rd")
      .none .none).2.status = 201 ∧
    ¬ Selects Seed.service (Seed.world Seed.database) (Seed.request {} "r1") "admin" (.str "p@ssw0rd")
      (.str "local") .none := by
  refine ⟨by decide +kernel, by decide +kernel, fun h => ?_⟩
  have hnone : (loginArgs Seed.service (Seed.world Seed.database) (Seed.request {} "r1") "admin"
      (.str "p@ssw0rd") (.str "local") .none).isNone := by decide +kernel
  have haccepts : (LocalFunc.login Seed.service Seed.database "admin" (.str "p@ssw0rd")).toOption.isSome := by
    decide +kernel
  cases hlogin : LocalFunc.login Seed.service Seed.database "admin" (.str "p@ssw0rd") with
  | error answer =>
      rw [hlogin] at haccepts
      cases haccepts
  | ok account =>
      obtain ⟨call, hcall⟩ := (h.named "local" rfl (by decide) (Or.inl rfl)).mpr
        ⟨_, account, congrArg (fun r => some (Seed.world Seed.database, r)) hlogin⟩
      rw [hcall] at hnone
      cases hnone

/-- Without a name the choice is right. -/
theorem unnamed_method_selects : Selects Seed.service (Seed.world Seed.database) (Seed.request {} "r1")
    "admin" (.str "p@ssw0rd") .none .none :=
  (methodSelection_iff Seed.service (Seed.world Seed.database) (Seed.request {} "r1") "admin"
    (.str "p@ssw0rd") .none .none rfl (by decide +kernel)).mpr nofun

end SessionAuth

end Apicrud
