import Apicrud.Relational
import Apicrud.Text

/-! # The database models

The tables of the `apicrud` schema and of the example application's `main` schema, with the
columns, server defaults, constraints and relationships that the modelled code reads or that
the database enforces on what it writes.  `created` is filled in by the server's clock where
the code names no value; it is never null and never read, so it carries no constraint here.
Column lengths are left out: values are taken to fit their columns. -/

namespace Apicrud

open Relational

/-- The model classes. -/
inductive Model where
  | account
  | apikey
  | apikeyScope
  | category
  | contact
  | credential
  | directMessage
  | grant
  | list
  | listMember
  | listMessage
  | location
  | message
  | person
  | profile
  | scope
  | settings
  | storage
  | tz
deriving DecidableEq, Repr

namespace Model

/-- All models. -/
def all : List Model :=
  [account, apikey, apikeyScope, category, contact, credential, directMessage, grant, list,
    listMember, listMessage, location, message, person, profile, scope, settings, storage, tz]

theorem mem_all (m : Model) : m ∈ all := by cases m <;> decide

/-- `model.__name__`. -/
def className : Model → String
  | account => "Account"
  | apikey => "APIkey"
  | apikeyScope => "APIkeyScope"
  | category => "Category"
  | contact => "Contact"
  | credential => "Credential"
  | directMessage => "DirectMessage"
  | grant => "Grant"
  | list => "List"
  | listMember => "ListMember"
  | listMessage => "ListMessage"
  | location => "Location"
  | message => "Message"
  | person => "Person"
  | profile => "Profile"
  | scope => "Scope"
  | settings => "Settings"
  | storage => "Storage"
  | tz => "Tz"

/-- `model.__name__.lower()`, the resource name of a model. -/
def resource : Model → String
  | account => "account"
  | apikey => "apikey"
  | apikeyScope => "apikeyscope"
  | category => "category"
  | contact => "contact"
  | credential => "credential"
  | directMessage => "directmessage"
  | grant => "grant"
  | list => "list"
  | listMember => "listmember"
  | listMessage => "listmessage"
  | location => "location"
  | message => "message"
  | person => "person"
  | profile => "profile"
  | scope => "scope"
  | settings => "settings"
  | storage => "storage"
  | tz => "tz"

/-- `getattr(models, name)` for a model class. -/
def named (name : String) : Option Model := all.find? fun m => m.className == name

/-- The columns, as class attributes. -/
def columns : Model → List String
  | account => ["id", "name", "uid", "password", "password_must_change", "totp_secret",
      "backup_codes", "is_admin", "settings_id", "last_login", "created", "modified", "status"]
  | apikey => ["id", "name", "uid", "prefix", "hashvalue", "expires", "last_used", "created",
      "modified", "status"]
  | apikeyScope => ["apikey_id", "scope_id", "created"]
  | category => ["id", "name", "uid", "created", "modified", "status"]
  | contact => ["id", "label", "type", "carrier", "info", "muted", "rank", "uid", "privacy",
      "created", "modified", "status"]
  | credential => ["id", "name", "vendor", "type", "url", "key", "secret", "otherdata", "expires",
      "settings_id", "uid", "created", "modified", "status"]
  | directMessage => ["message_id", "uid", "created"]
  | grant => ["id", "name", "value", "uid", "expires", "created", "modified", "status"]
  | list => ["id", "name", "description", "privacy", "category_id", "uid", "created", "modified",
      "status"]
  | listMember => ["uid", "list_id", "authorization", "created"]
  | listMessage => ["message_id", "list_id", "created"]
  | location => ["id", "name", "address", "city", "state", "postalcode", "country", "geolat",
      "geolong", "neighborhood", "privacy", "uid", "category_id", "created", "modified", "status"]
  | message => ["id", "content", "subject", "sender_id", "recipient_id", "list_id", "privacy",
      "published", "uid", "viewed", "created", "modified", "status"]
  | person => ["id", "name", "identity", "referrer_id", "privacy", "created", "modified", "status"]
  | profile => ["id", "uid", "item", "value", "location_id", "tz_id", "privacy", "created",
      "modified", "status"]
  | scope => ["id", "name", "settings_id", "created", "modified", "status"]
  | settings => ["id", "name", "privacy", "smtp_port", "smtp_smarthost", "smtp_credential_id",
      "country", "default_storage_id", "lang", "tz_id", "url", "window_title", "default_cat_id",
      "administrator_id", "default_hostlist_id", "created", "modified"]
  | storage => ["id", "name", "prefix", "bucket", "region", "cdn_uri", "identifier", "privacy",
      "credentials_id", "uid", "created", "modified", "status"]
  | tz => ["id", "name", "status"]

/-- `server_default` of the columns. -/
def defaults : Model → List (String × Val)
  | account => [("password_must_change", .bool false), ("is_admin", .bool false)]
  | apikey | category | grant | message => [("status", .str "active")]
  | contact => [("label", .str "home"), ("type", .str "email"), ("muted", .bool false),
      ("rank", .int 1), ("privacy", .str "member"), ("status", .str "unconfirmed")]
  | credential | scope | tz => [("status", .str "active")]
  | list => [("privacy", .str "secret")]
  | listMember => [("authorization", .str "member")]
  | location => [("country", .str "US"), ("privacy", .str "public")]
  | person | profile => [("privacy", .str "public")]
  | settings => [("privacy", .str "public"), ("smtp_port", .int 25), ("country", .str "US"),
      ("lang", .str "en_US"), ("tz_id", .int 598),
      ("window_title", .str "Example apicrud Application")]
  | storage => [("region", .str "us-east-2"), ("privacy", .str "public"), ("status", .str "active")]
  | apikeyScope | directMessage | listMessage => []

/-- The columns declared `nullable=False`. -/
def notNull : Model → List String
  | account => ["id", "name", "uid", "password", "password_must_change", "is_admin", "settings_id",
      "status"]
  | apikey => ["id", "name", "uid", "prefix", "hashvalue", "status"]
  | apikeyScope => ["apikey_id", "scope_id"]
  | category => ["id", "name", "uid", "status"]
  | contact => ["id", "label", "type", "muted", "rank", "uid", "privacy", "status"]
  | credential => ["id", "name", "vendor", "settings_id", "uid", "status"]
  | directMessage => ["message_id", "uid"]
  | grant => ["id", "name", "value", "uid", "status"]
  | list => ["id", "name", "privacy", "category_id", "uid", "status"]
  | listMember => ["uid", "list_id", "authorization"]
  | listMessage => ["message_id", "list_id"]
  | location => ["id", "city", "country", "privacy", "uid", "category_id", "status"]
  | message => ["id", "content", "sender_id", "privacy", "uid", "status"]
  | person => ["id", "name", "identity", "privacy", "status"]
  | profile => ["id", "uid", "item", "privacy", "status"]
  | scope => ["id", "name", "settings_id", "status"]
  | settings => ["id", "name", "privacy", "smtp_port", "country", "lang", "tz_id", "default_cat_id",
      "administrator_id"]
  | storage => ["id", "name", "bucket", "privacy", "uid", "status"]
  | tz => ["id", "name", "status"]

/-- The `Enum` columns. -/
def enums : Model → List (String × List Val)
  | contact => [("status", [.str "active", .str "unconfirmed", .str "disabled"])]
  | person => [("status", [.str "active", .str "disabled", .str "suspended"])]
  | account | apikey | category | credential | grant | list | location | message | profile | scope
  | storage | tz => [("status", [.str "active", .str "disabled"])]
  | apikeyScope | directMessage | listMember | listMessage | settings => []

/-- Primary keys and unique constraints. -/
def unique : Model → List (List String)
  | account => [["id"], ["name"], ["uid"], ["id", "uid"]]
  | apikey => [["id"], ["prefix"], ["uid", "name"]]
  | apikeyScope => [["apikey_id", "scope_id"]]
  | contact => [["id"], ["info", "type"]]
  | category | credential | grant | list | storage => [["id"], ["name", "uid"]]
  | directMessage => [["message_id", "uid"]]
  | listMember => [["list_id", "uid"]]
  | listMessage => [["list_id", "message_id"]]
  | location | message | settings => [["id"]]
  | person => [["id"], ["identity"]]
  | profile => [["id"], ["uid", "item"]]
  | scope => [["id"], ["name", "settings_id"]]
  | tz => [["id"], ["name"]]

/-- The owner column: a foreign key to `people` that cascades. -/
def ownedBy : ForeignKey Model := ⟨"uid", person, true⟩

/-- The foreign keys. -/
def foreign : Model → List (ForeignKey Model)
  | account => [ownedBy, ⟨"settings_id", settings, false⟩]
  | apikey | contact => [ownedBy]
  | apikeyScope => [⟨"apikey_id", apikey, true⟩, ⟨"scope_id", scope, true⟩]
  | category | grant => [⟨"uid", person, false⟩]
  | credential => [⟨"settings_id", settings, false⟩, ownedBy]
  | directMessage => [⟨"message_id", message, true⟩, ownedBy]
  | list => [⟨"category_id", category, false⟩, ownedBy]
  | listMember => [ownedBy, ⟨"list_id", list, true⟩]
  | listMessage => [⟨"message_id", message, true⟩, ⟨"list_id", list, true⟩]
  | location => [ownedBy, ⟨"category_id", category, false⟩]
  | message => [⟨"sender_id", person, false⟩, ⟨"recipient_id", person, false⟩,
      ⟨"list_id", list, false⟩, ownedBy]
  | person => [⟨"referrer_id", person, false⟩]
  | profile => [ownedBy, ⟨"location_id", location, false⟩, ⟨"tz_id", tz, false⟩]
  | scope => [⟨"settings_id", settings, false⟩]
  | settings => [⟨"smtp_credential_id", credential, false⟩, ⟨"default_storage_id", storage, false⟩,
      ⟨"tz_id", tz, false⟩, ⟨"default_cat_id", category, false⟩,
      ⟨"administrator_id", person, false⟩, ⟨"default_hostlist_id", list, false⟩]
  | storage => [⟨"credentials_id", credential, false⟩, ownedBy]
  | tz => []

/-- `hasattr(model, column)` for a column name. -/
def Has (m : Model) (column : String) : Prop := column ∈ m.columns

instance (m : Model) (column : String) : Decidable (m.Has column) :=
  inferInstanceAs (Decidable (_ ∈ _))

/-- `hasattr(model, 'owner')`. -/
def hasOwner : Model → Bool
  | account | apikey | category | contact | credential | directMessage | grant | list | location
  | message | profile | storage => true
  | _ => false

/-- `__rest_exclude__`. -/
def restExclude : Model → List String
  | account => ["backup_codes", "password", "totp_secret"]
  | apikey => ["hashvalue"]
  | credential => ["secret", "otherdata"]
  | _ => []

end Model

/-- One name of `__rest_related__`: a many-to-many attribute, the model it lists, and the
association table with the columns for the record itself and for the related record. -/
structure Related where
  attr : String
  target : Model
  assoc : Model
  here : String
  there : String

/-- `__rest_related__`. -/
def Model.restRelated : Model → List Related
  | .apikey => [⟨"scopes", .scope, .apikeyScope, "apikey_id", "scope_id"⟩]
  | .list => [⟨"members", .person, .listMember, "list_id", "uid"⟩]
  | .person => [⟨"lists", .list, .listMember, "uid", "list_id"⟩]
  | _ => []

/-- `__rest_hybrid__`, with the values. -/
def Model.restHybrid : Model → Row → List (String × Val)
  | .account, row => [("totp", .bool (row "totp_secret").truthy)]
  | _, _ => []

/-- The declarations of the two schemas together.  People own lists and messages, which own
the rows of the association tables: three deletes in a row at most. -/
def schema : Schema Model where
  tables := Model.all
  complete := Model.mem_all
  columns := Model.columns
  defaults := Model.defaults
  notNull := Model.notNull
  enums := Model.enums
  unique := Model.unique
  foreign := Model.foreign
  cascadeDepth := 3

/-- The committed database. -/
abbrev Database := Store schema

end Apicrud
