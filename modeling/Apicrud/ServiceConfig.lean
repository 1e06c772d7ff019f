import Apicrud.Interruptible
import Apicrud.Json
import Apicrud.Text

/-! # The configuration of a service

`ServiceConfig` takes the value of each key of its schema from the environment, a file, the keyword arguments
or the schema, in this order, and puts it into the dictionary `state` of the module, key by key.  What it has
put there is then validated, some of the values are worked on, and all of them become the immutable `config`.
Both survive from call to call; `ServiceConfig.get` reports what is in `state`.

An exception may be raised at many places, and leaves in `state` what was put there until then: the
constructor is `Interruptible`. -/

namespace Apicrud

namespace ServiceConfig

/-- A property of the schema. -/
structure Property where
  type : Option String := none
  default : Option Json := none
  format : Option String := none

/-- What is stored under a key of `state`. -/
inductive Item where
  | json (j : Json)
  | bytes (bs : List UInt8)
  | models
  | schema (properties : List (String × Property))

/-- `state`, and the fields of `config`. -/
abbrev Settings := List (String × Item)

/-- The schema of the configuration. -/
structure Schema where
  properties : List (String × Property)
  nodup : (properties.map Prod.fst).Nodup
  /-- `jsonschema.validate(instance, schema)` does not raise -/
  validates : Settings → Bool

/-- What the process finds where it runs. -/
structure Host where
  /-- `str.upper` -/
  upper : String → String
  upper_secret : upper "db_aes_secret" = "DB_AES_SECRET"
  /-- `str.lower` -/
  lower : String → String
  /-- the name may be that of a field of a `namedtuple` -/
  isField : String → Bool
  /-- `os.path.abspath` -/
  abspath : String → String
  /-- `os.path.dirname(__file__)` -/
  here : String

/-- The variables of the modules. -/
structure Process where
  state : Settings := []
  config : Option Settings := none
  /-- `base.aes_secret` -/
  aesSecret : Option Item := none

/-- A call of the constructor, with the environment in which it is made. -/
structure Call where
  environ : String → Option String
  /-- the path of the file, and what it holds; `none` where it cannot be read -/
  file : Option (String × Option Json) := none
  models : Bool := false
  reset : Bool := false
  kwargs : List (String × Json) := []

/-! ### Access to the state -/

/-- `state[key] = item` -/
def Process.assign (s : Process) (key : String) (item : Item) : Process :=
  { s with state := Assoc.set s.state key item }

/-- The value under a key, where that is a JSON value. -/
def Process.json (s : Process) (key : String) : Option Json :=
  match Assoc.get s.state key with
  | some (.json j) => some j
  | _ => none

/-- `state[key] = item` -/
def assign (key : String) (item : Item) : Interruptible Process Unit :=
  .change fun s => s.assign key item

@[simp] theorem assign_run (key : String) (item : Item) (s : Process) :
    assign key item s = (s.assign key item, some ()) := rfl

/-- `state[key]`, as a JSON value. -/
def look (key : String) : Interruptible Process Json := .read fun s => s.json key

@[simp] theorem look_run (key : String) (s : Process) : look key s = (s, s.json key) := rfl

/-- `state[key] = f(state[key])`; `f` gives nothing where it raises. -/
def adjust (key : String) (f : Json → Option Json) : Interruptible Process Unit := do
  let value ← look key
  let value ← .ofOption (f value)
  assign key (.json value)

/-! ### Texts and paths -/

/-- A digit of `binascii.unhexlify`. -/
def nibble (c : Char) : Option ℕ :=
  if '0' ≤ c ∧ c ≤ '9' then some (c.toNat - 48)
  else if 'a' ≤ c ∧ c ≤ 'f' then some (c.toNat - 87)
  else if 'A' ≤ c ∧ c ≤ 'F' then some (c.toNat - 55)
  else none

/-- `binascii.unhexlify` of the characters; `none` where it raises. -/
def unhexlify : List Char → Option (List UInt8)
  | [] => some []
  | [_] => none
  | a :: b :: cs => do
      let high ← nibble a
      let low ← nibble b
      let rest ← unhexlify cs
      pure (UInt8.ofNat (16 * high + low) :: rest)

/-- `os.path.join(a, b)` -/
def joinPath (a b : String) : String :=
  if b.toList.head? = some '/' then b
  else if a = "" ∨ a.toList.getLast? = some '/' then a ++ b
  else a ++ "/" ++ b

/-- `os.path.dirname(path)` -/
def dirname (path : String) : String :=
  let head := (path.toList.reverse.dropWhile (· ≠ '/')).reverse
  if head.all (· = '/') then String.ofList head
  else String.ofList (head.reverse.dropWhile (· = '/')).reverse

/-- `'/' in value`; `none` where it raises. -/
def hasSlash : Json → Option Bool
  | .str s => some (decide (Text.Contains s "/"))
  | .arr items => some (items.any fun item => match item with
      | .str s => decide (s = "/")
      | _ => false)
  | .obj fields => some (decide (HashKey.str "/" ∈ fields.map Prod.fst))
  | _ => none

/-! ### The value of a key -/

/-- The value of an environment variable as the type of the property wants it; `none` where this raises. -/
def parse (host : Host) (type : Option String) (text : String) : Option Json :=
  match type with
  | none => none
  | some type =>
      if type = "array" then some (.arr ((Text.split text ',').map .str))
      else if type = "integer" then (Text.int text).map fun n => .num n
      else if type = "boolean" then
        if host.lower text ∈ ["1", "true", "yes"] then some (.bool true)
        else if host.lower text ∈ ["0", "false", "no"] then some (.bool false)
        else none
      else some (.str text)

/-- `_compose_db_url`; `none` where it raises. -/
def composeDbUrl (environ : String → Option String) : Option Json :=
  (match environ "DB_PORT" with
    | some text => Text.int text
    | none => some 3306).map fun port =>
  .str ((environ "DB_TYPE").getD "mysql+pymysql" ++ "://" ++ (environ "DB_USER").getD "example" ++ ":" ++
    (environ "DB_PASS").getD "example" ++ "@" ++ (environ "DB_HOST").getD "None" ++ ":" ++ toString port ++
    "/" ++ (environ "DB_NAME").getD "example")

/-- `os.environ.get(key.upper())`, where that is not empty. -/
def Call.variable (call : Call) (host : Host) (key : String) : Option String :=
  (call.environ (host.upper key)).filter fun text => text ≠ ""

/-- `key in overrides`; `none` where it raises. -/
def contains (key : String) : Json → Option Bool
  | .obj fields => some (decide (HashKey.str key ∈ fields.map Prod.fst))
  | .arr items => some (items.any fun item => match item with
      | .str s => decide (s = key)
      | _ => false)
  | .str s => some (decide (Text.Contains s key))
  | _ => none

/-- `overrides.pop(key)`: the value, and what is left; `none` where it raises. -/
def pop (key : String) : Json → Option (Json × Json)
  | .obj fields => (Assoc.get fields key).map fun value => (value, .obj (Assoc.erase fields key))
  | _ => none

/-- `overrides.pop(key, None)`: what is left; `none` where it raises. -/
def drop (key : String) : Json → Option Json
  | .obj fields => some (.obj (Assoc.erase fields key))
  | _ => none

variable (host : Host) (call : Call)

/-- `state[key] = schema['default']` and `state[key].update(overrides.pop(key))` -/
def merge (overrides : Json) (key : String) (schema : Property) : Interruptible Process Json := do
  let default ← .ofOption schema.default
  assign key (.json default)
  match default with
  | .obj fields => do
      let (value, overrides) ← .ofOption (pop key overrides)
      let (fields, done) := Json.update fields value
      assign key (.json (.obj fields))
      if done then pure overrides else .raise
  | _ => .raise

/-- The value of a key that neither the environment nor the file has. -/
def setOtherwise (overrides : Json) (p : String × Property) : Interruptible Process Json :=
  match Assoc.get call.kwargs p.1 with
  | some value => do
      assign p.1 (.json value)
      pure overrides
  | none =>
      match p.2.default with
      | some value => do
          assign p.1 (.json value)
          pure overrides
      | none =>
          if p.1 = "db_url" then do
            let value ← .ofOption (composeDbUrl call.environ)
            assign p.1 (.json value)
            pure overrides
          else .raise

/-- One turn of the loop: the value of a key is put into `state`, and what is left of the overrides is
returned. -/
def setProperty (overrides : Json) (p : String × Property) : Interruptible Process Json :=
  let (key, schema) := p
  match call.variable host key with
  | some text => do
      let value ← .ofOption (parse host schema.type text)
      assign key (.json value)
      .ofOption (drop key overrides)
  | none => do
      if ← .ofOption (contains key overrides) then
        let type ← .ofOption schema.type
        if type = "object" then merge overrides key schema
        else
          let (value, overrides) ← .ofOption (pop key overrides)
          assign key (.json value)
          pure overrides
      else setOtherwise call overrides p

/-- The values of the file; `none` where it cannot be read, or has none. -/
def overrides : Option Json :=
  match call.file with
  | none => some (.obj [])
  | some (path, content) =>
      if path = "" then some (.obj [])
      else content.filter Json.truthy

/-! ### Special cases -/

/-- The metrics are completed one by one. -/
def composeMetric (p : HashKey × Json) : Interruptible Process Unit :=
  match p.2 with
  | .obj item =>
      if item.all fun q => decide (q.1 ∈ ([.str "notify", .str "period", .str "scope", .str "style"] :
          List HashKey)) then do
        let complete := fun item (name : HashKey) (value : Json) =>
          Assoc.set item name ((Assoc.get item name).getD value)
        let item := complete item "notify" (.num 0)
        let item := complete item "period" (.str "day")
        let item := complete item "scope" (.str "user")
        let item := complete item "style" (.str "grant")
        adjust "metrics" fun metrics => match metrics with
          | .obj metrics => some (.obj (Assoc.set metrics p.1 (.obj item)))
          | _ => none
      else .raise
  | _ => .raise

/-- `_compose_metrics(state['metrics'])`, which changes the dictionary that it is given. -/
def composeMetrics : Interruptible Process Unit := do
  let metrics ← look "metrics"
  match metrics with
  | .obj metrics => metrics.forM composeMetric
  | _ => .raise

/-- `_compose_loglevel`; `none` where it raises. -/
def composeLoglevel : Json → Option Json
  | .str "debug" => some (.num 10)
  | .str "info" => some (.num 20)
  | .str "warning" => some (.num 30)
  | .str "error" => some (.num 40)
  | .str "critical" => some (.num 50)
  | _ => none

/-- `value.append(path)`; `none` where it raises. -/
def append (path : String) : Json → Option Json
  | .arr items => some (.arr (items ++ [.str path]))
  | _ => none

/-- `max(value, 86400)`; `none` where it raises. -/
def atLeastADay : Json → Option Json
  | .num q => some (.num (max q 86400))
  | .bool _ => some (.num 86400)
  | _ => none

/-- The path as it is, or inside of a directory. -/
def inside (directory : String) : Json → Option Json
  | .str path => some (.str (joinPath directory path))
  | _ => none

/-- `if '/' not in value.split(';')[0]` the value is put into the directory. -/
def translations (directory : String) : Json → Option Json
  | .str value =>
      if Text.Contains ((Text.split value ';').headD "") "/" then some (.str value)
      else inside directory (.str value)
  | _ => none

/-- `if '/' not in value` it is put into the directory. -/
def besides (directory : String) (value : Json) : Option Json :=
  match hasSlash value with
  | none => none
  | some true => some value
  | some false => inside directory value

/-- `state['secret_key'] = binascii.unhexlify(state['flask_secret_key'])` -/
def composeSecret : Interruptible Process Unit := do
  let secret ← look "flask_secret_key"
  match secret with
  | .str text => do
      let bytes ← .ofOption (unhexlify text.toList)
      assign "secret_key" (.bytes bytes)
  | _ => .raise

/-- The limits of logins outside of production. -/
def composeLimits : Interruptible Process Unit :=
  if call.environ "APP_ENV" ≠ some "prod" then do
    adjust "login_admin_limit" atLeastADay
    let limit ← look "login_admin_limit"
    let limit ← .ofOption (atLeastADay limit)
    assign "login_session_limit" (.json limit)
  else pure ()

/-- The paths of files are relative to the file of the configuration. -/
def composePaths : Interruptible Process Unit :=
  match call.file with
  | none => pure ()
  | some (path, _) =>
      if path = "" then pure ()
      else do
        adjust "rbac_file" (besides (dirname (host.abspath path)))
        adjust "db_migrations" (besides (dirname (host.abspath path)))
        adjust "db_seed_file" (besides (dirname (host.abspath path)))

/-- The special cases among the keys of the schema. -/
def specialValues : Interruptible Process Unit := do
  composeMetrics
  adjust "log_level" composeLoglevel
  adjust "template_folders" (append (joinPath host.here "templates"))
  composeLimits call
  adjust "babel_translation_directories" (translations host.here)
  composePaths host call

/-- All special cases. -/
def specialCases : Interruptible Process Unit := do
  composeSecret
  specialValues host call

/-! ### The constructor -/

variable (schema : Schema)

/-- The fields of a `namedtuple`; `none` where it raises. -/
def namedtuple (state : Settings) : Option Settings :=
  if (state.map fun p => host.upper p.1).Nodup ∧ ∀ p ∈ state, host.isField (host.upper p.1) = true then
    some (state.map fun p => (host.upper p.1, p.2))
  else none

/-- `state` without what is not a setting. -/
def core (state : Settings) : Settings := Assoc.erase (Assoc.erase state "schema") "models"

/-- The loop over the schema. -/
def setProperties (overrides : Json) : Interruptible Process Json :=
  schema.properties.foldlM (setProperty host call) overrides

/-- The values are loaded and checked. -/
def load : Interruptible Process Unit := do
  let overrides ← .ofOption (overrides call)
  let overrides ← setProperties host call schema overrides
  .ensure fun s => schema.validates s.state
  .ensure fun _ => !overrides.truthy

/-- What was loaded becomes the configuration. -/
def publish : Interruptible Process Unit := do
  .change fun s => { s with state := core s.state }
  let config ← .read fun s => namedtuple host s.state
  .change fun s => { s with config := some config }
  assign "schema" (.schema schema.properties)

/-- `reset or not config` -/
def Call.Loads (s : Process) : Prop := call.reset = true ∨ (s.config.getD []).isEmpty = true

instance (s : Process) : Decidable (call.Loads s) := inferInstanceAs (Decidable (_ ∨ _))

/-- What the constructor does after the configuration is there; it returns `self.config`. -/
def finish : Interruptible Process Settings := do
  let config ← .read fun s => s.config
  let secret ← .ofOption (Assoc.get config "DB_AES_SECRET")
  .change fun s => { s with aesSecret := some secret }
  if call.models then assign "models" .models
  pure config

/-- `ServiceConfig(file, models, reset, **kwargs)`, with `self.config` as its result. -/
def init : Interruptible Process Settings := fun s =>
  (if call.Loads s then do
    load host call schema
    specialCases host call
    publish host schema
    finish call
  else finish call : Interruptible Process Settings) s

/-! ### The report -/

/-- `get` shows the key: it is no part of the text `db_url`, and not marked as a password. -/
def Visible (p : String × Property) : Prop :=
  ¬ Text.Contains "db_url" p.1 ∧ p.2.format ≠ some "password"

instance (p : String × Property) : Decidable (Visible p) := inferInstanceAs (Decidable (_ ∧ _))

/-- What `get` returns to an administrator; `none` where it raises. -/
def get (s : Process) : Option Settings :=
  match Assoc.get s.state "schema" with
  | some (.schema properties) =>
      (properties.filter fun p => decide (Visible p)).mapM fun p =>
        (Assoc.get s.state p.1).map fun item => (p.1, item)
  | _ => none

end ServiceConfig

end Apicrud
