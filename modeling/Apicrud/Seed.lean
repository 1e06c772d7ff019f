import Apicrud.Rbac
import Apicrud.Controllers

/-! # The seeded installation

The records of `db_seed.yaml` that logins, contacts and permissions read, with the policies of the
example application, and simple functions in the place of the libraries: enough to run the service
on given requests. -/

namespace Apicrud

open Relational

namespace Seed

/-- A record as the server stores it. -/
def row (m : Model) (cells : List (String × Val)) : Row :=
  schema.fill m (Row.ofDict (Dict.ofList cells))

/-- A database written out by its tables. -/
def tables (rows : List (Model × Row)) : Db Model := fun m =>
  rows.filterMap fun r => if r.1 = m then some r.2 else none

/-- The records of `db_seed.yaml`. -/
def records : List (Model × Row) :=
  [(.category, row .category [("id", .str "x-3423ceaf"), ("name", .str "default"),
      ("uid", .str "x-23450001")]),
    (.person, row .person [("id", .str "x-23450001"), ("name", .str "Example User"),
      ("identity", .str "user@example.com"), ("privacy", .str "public"),
      ("status", .str "active")]),
    (.contact, row .contact [("id", .str "x-4566a239"), ("uid", .str "x-23450001"),
      ("type", .str "email"), ("info", .str "user@example.com"), ("muted", .bool true),
      ("privacy", .str "public"), ("status", .str "active")]),
    (.account, row .account [("id", .str "x-54320001"), ("name", .str "admin"),
      ("is_admin", .bool true), ("uid", .str "x-23450001"), ("settings_id", .str "x-75023275"),
      ("password_must_change", .bool false), ("password", .str "$5$YPzbABo4$p@ssw0rd"),
      ("status", .str "active")]),
    (.settings, row .settings [("id", .str "x-75023275"), ("administrator_id", .str "x-23450001"),
      ("name", .str "global"), ("country", .str "US"), ("lang", .str "en_US"), ("tz_id", .int 598),
      ("default_cat_id", .str "x-3423ceaf")]),
    (.tz, row .tz [("id", .int 598), ("name", .str "UTC")])]

/-- The records of another user. -/
def member : List (Model × Row) :=
  [(.person, row .person [("id", .str "u-0002"), ("name", .str "Second User"),
      ("identity", .str "second@example.com"), ("status", .str "active")]),
    (.contact, row .contact [("id", .str "x-c0002"), ("uid", .str "u-0002"),
      ("type", .str "email"), ("info", .str "second@example.com"), ("status", .str "active")]),
    (.account, row .account [("id", .str "x-a0002"), ("name", .str "second"),
      ("uid", .str "u-0002"), ("settings_id", .str "x-75023275"),
      ("password", .str "$5$salt$Second2!"), ("status", .str "active")])]

/-- The seeded database. -/
def database : Database := ⟨tables records, by decide +kernel⟩

/-- The seeded database with the other user. -/
def shared : Database := ⟨tables (records ++ member), by decide +kernel⟩

/-- The digits of a number, read. -/
def readNat (s : String) : Option ℕ :=
  if s.toList.all Char.isDigit then
    some (s.toList.foldl (fun n c => 10 * n + (c.toNat - '0'.toNat)) 0)
  else none

/-- Functions that keep what the real ones keep: digests tell texts apart, what was encrypted or
signed is read back, and a signature is as old as its stamp says. -/
def lib : Lib where
  lower s := String.ofList (s.toList.map Char.toLower)
  fold := Char.toLower
  strptime _ _ := none
  sha1 s := "1" ++ s
  sha256 s := s
  md5 s := String.ofList ((s.toList ++ List.replicate 16 '.').take 16)
  cryptHash salt password := "$5$" ++ salt ++ "$" ++ password
  cryptVerify password hash := (Text.split hash '$').getLast? == some password
  totpVerify secret otp now := (List.range 3).any fun i =>
    otp == secret ++ toString (now / 30 + i - 1)
  totpNow secret now := secret ++ toString (now / 30)
  encryptBin _ s := ":" ++ s
  decryptBin s := (Text.splitFirst s ':').map Prod.snd
  jwtEncode ses := (ses.get "jti").text
  dumps payload now := toString now ++ "|" ++ payload
  loads token now age :=
    match Text.splitFirst token '|' with
    | some (stamp, payload) =>
        match readNat stamp with
        | some t => if now ≤ t + age then some payload else none
        | none => none
    | none => none
  degrees v rounded := if rounded then "~" ++ v.text else v.text

/-- The service with the shipped policies and the default configuration. -/
def service : Service := Service.example {} lib

/-- What a request takes from outside when nothing special happens. -/
def ambient (id : String) : Ambient where
  genId draw := if draw = .bypass then id ++ "b" else id
  nonce := "nonce" ++ id
  salt := "salt"
  totpSecret := "SECRET"
  backupCodes := []
  grants _ := .int 10
  categoryId := some "x-3423ceaf"
  geocode := (.none, .none, .none)
  withinDailyTotal := true
  lang := none
  lockedOut := false
  userInfo := none
  authorize := .redirect "https://provider.example.com"

/-- A request with its headers. -/
def request (h : Headers) (id : String) : Request := ⟨h, ambient id⟩

/-- A fresh process on a database. -/
def world (db : Database) : World where
  db := db
  redis := Expiring.empty
  otps := Expiring.empty
  apikeys _ := none
  now := 100

end Seed

end Apicrud
