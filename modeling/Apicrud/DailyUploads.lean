import Apicrud.Context
import Apicrud.Expiring
import Apicrud.QuotaRaces
import Apicrud.UploadNames

/-! # Daily upload limits

`get_upload_url` asks for credit of the daily grant, and remembers what is to be uploaded;
`upload_complete` hands the file to the worker, takes the credit, and answers 201 whether there was any.  The
URLs that were issued while there was credit can all be completed, and each of them again.  A period stays
within the limit just when every completion finds credit (`uploads_iff`). -/

namespace Apicrud

open Relational

namespace StorageAPI

/-- `MIME_IMAGE_TYPES` -/
def mimeImageTypes : List String := ["gif", "heic", "jpeg", "png", "svg"]

/-- `MIME_VIDEO_TYPES` -/
def mimeVideoTypes : List String := ["mp4", "mpeg"]

/-- The uploads with a daily limit. -/
inductive Kind where
  | photo
  | video
deriving DecidableEq

/-- The metric of the uploads. -/
def Kind.metric : Kind → String
  | photo => "photo_daily_total"
  | video => "video_daily_total"

/-- What is configured, and the grants of the user. -/
structure Setting where
  metrics : MetricConf
  /-- `Grants().get(name, uid=uid)` -/
  limits : String → ℤ
  /-- `REDIS_TTL` -/
  cacheTtl : ℕ
  unicode : UnicodeLib
  uid : String

/-- What is kept of an upload until it is complete. -/
structure FileMeta where
  ctype : Option String
  size : Option ℤ

/-- The counters, the metadata of the files, and the time. -/
structure State where
  meters : Meters
  files : Expiring String FileMeta
  now : ℕ

/-- The body of a request for an URL. -/
structure Body where
  storageId : Val := .none
  parentType : Option String := none
  parentId : Val := .none
  name : Option String := none
  contentType : Option String := none
  duration : Option ℚ := none
  size : Option ℤ := none

/-- What a request for an URL finds: the vendor of the storage volume, the pictures of the album, whether it
may be updated, a new file id, and the answer of the vendor. -/
structure Found where
  vendor : Option String
  pictures : Option ℕ
  permitted : Bool
  fileId : String
  answer : Response

/-- `'fid:%s:%s' % (self.uid, file_id[-8:])` -/
def fileKey (uid fileId : String) : String :=
  "fid:" ++ uid ++ ":" ++ String.ofList (fileId.toList.drop (fileId.toList.length - 8))

/-- The limit that the type of a file comes under. -/
def kindOf (ctype : Option String) : Option Kind :=
  match ctype with
  | some ctype =>
      if ctype ∈ mimeImageTypes then some .photo
      else if ctype ∈ mimeVideoTypes then some .video
      else none
  | none => none

variable (c : Setting)

/-- `Metrics(uid=self.uid).check`, and the answer where no credit is left. -/
def ensureCredit (s : State) (kind : Kind) (text : String) : Except Response Unit :=
  match Metrics.check c.metrics s.meters s.now (c.limits kind.metric) (some c.uid) kind.metric with
  | some credit => Checks.ensure (credit.getD 0 ≠ 0) (.message text 405)
  | none => .error .raised

/-- The type of a file, after the slash. -/
def subtype (contentType : Option String) : Except Response (Option String) :=
  match contentType with
  | none | some "" => .ok none
  | some contentType =>
      match Text.split contentType '/' with
      | _ :: ctype :: _ => .ok (some ctype)
      | _ => .error .raised

/-- The checks of the type of a file. -/
def ensureKind (s : State) (body : Body) (ctype : Option String) : Except Response Unit :=
  match kindOf ctype with
  | some .video => do
      ensureCredit c s .video "daily video upload limit exceeded"
      let limit := c.limits "video_duration_max"
      Checks.ensure (body.duration.getD 0 ≠ 0 → body.duration.getD 0 ≤ limit)
        (.message ("video exceeds maximum duration=" ++ toString limit ++ ".000000") 405)
  | some .photo => ensureCredit c s .photo "daily photo upload limit exceeded"
  | none => .ok ()

/-- What `get_upload_url` checks, and the metadata that it keeps. -/
def prepare (s : State) (body : Body) (found : Found) : Except Response FileMeta := do
  let vendor ←
    match found.vendor with
    | some vendor => .ok vendor
    | none => .error (.messageId "storage volume not found" body.storageId.text 404)
  Checks.ensure ((body.name.bind (rename c.unicode)).isSome) .raised
  -- a list or a message has no record to check here
  Checks.ensure (body.parentType.getD "album" = "album") .raised
  let pictures ←
    match found.pictures with
    | some pictures => .ok pictures
    | none => .error ⟨Dict.ofList [("album_id", body.parentId), ("message", .str "album not found")], 404⟩
  Checks.ensure (pictures < c.limits "album_size")
    (.message ("album is full (max=" ++ toString (c.limits "album_size") ++ ")") 405)
  Checks.ensure (found.permitted = true) (.message "access_denied" 403)
  let ctype ← subtype body.contentType
  ensureKind c s body ctype
  Checks.ensure (body.size.getD 0 ≠ 0 → body.size.getD 0 ≤ c.limits "media_size_max")
    (.message ("file size exceeds max=" ++ toString (c.limits "media_size_max")) 405)
  Checks.ensure (vendor = "backblaze" ∨ vendor = "aws") (.message ("Unsupported vendor=" ++ vendor) 405)
  Checks.ensure (found.answer.status = 201) found.answer
  pure ⟨ctype, body.size⟩

/-- `get_upload_url`: the metadata is not replaced where there is some under the key. -/
def getUploadUrl (s : State) (body : Body) (found : Found) : Expiring String FileMeta × Response :=
  match prepare c s body found with
  | .ok file =>
      ((s.files.setNX s.now (fileKey c.uid found.fileId) file c.cacheTtl).getD s.files,
        ⟨Dict.ofList [("params", found.answer.body.get "fields"),
          ("upload_url", found.answer.body.get "uploadUrl"), ("file_id", .str found.fileId)], 201⟩)
  | .error answer => (s.files, answer)

/-- The counting of `upload_complete`; `false` where it raises. -/
def count (s : State) (file : FileMeta) : Meters × Bool :=
  match Metrics.store c.metrics s.meters s.now (c.limits "file_upload_bytes_total") none
      "file_upload_bytes_total" ["ctype=" ++ file.ctype.getD "None"] file.size with
  | (meters, none) => (meters, false)
  | (meters, some _) =>
      match kindOf file.ctype with
      | some kind =>
          match Metrics.store c.metrics meters s.now (c.limits kind.metric) (some c.uid) kind.metric []
              none with
          | (meters, stored) => (meters, stored.isSome)
      | none => (meters, true)

/-- What `upload_complete` answers, and whether the worker was called before. -/
structure Completion where
  answer : Response
  handed : Bool

/-- `upload_complete` -/
def uploadComplete (s : State) (fileId status : String) : Meters × Completion :=
  match s.files.get s.now (fileKey c.uid fileId) with
  | some file =>
      if status = "done" then
        match count c s file with
        | (meters, true) => (meters, ⟨⟨Dict.ofList [("file_id", .str fileId)], 201⟩, true⟩)
        | (meters, false) => (meters, ⟨.raised, true⟩)
      else (s.meters, ⟨⟨Dict.ofList [("file_id", .str fileId),
        ("message", .str "unhandled frontend status")], 405⟩, false⟩)
  | none => (s.meters, ⟨⟨Dict.ofList [("file_id", .str fileId),
      ("message", .str "unhandled frontend status")], 405⟩, false⟩)

/-! ### The requests of a user -/

inductive Call where
  | getUploadUrl (body : Body) (found : Found)
  | uploadComplete (fileId status : String)

/-- A request with the time that passed before it. -/
structure Event where
  elapsed : ℕ
  call : Call

/-- The state at the time of a request. -/
def State.at (s : State) (e : Event) : State := { s with now := s.now + e.elapsed }

/-- The requests of one user as a machine. -/
def machine : Machine State Event Completion where
  step s e :=
    let s := s.at e
    match e.call with
    | .getUploadUrl body found =>
        let (files, answer) := getUploadUrl c s body found
        ({ s with files := files }, ⟨answer, false⟩)
    | .uploadComplete fileId status =>
        let (meters, completion) := uploadComplete c s fileId status
        ({ s with meters := meters }, completion)

/-- The time that passes over the requests. -/
def duration (es : List Event) : ℕ := (es.map Event.elapsed).sum

/-- The kind of the file that a request completes. -/
def completes (s : State) (e : Event) : Option Kind :=
  match e.call with
  | .getUploadUrl .. => none
  | .uploadComplete fileId status =>
      if status = "done" then ((s.at e).files.get (s.at e).now (fileKey c.uid fileId)).bind fun file =>
        kindOf file.ctype
      else none

/-- One for an upload of the kind that is answered 201 and handed to the worker. -/
def accepts (kind : Kind) (s : State) (e : Event) : ℕ :=
  if completes c s e = some kind ∧ ((machine c).out s e).answer.status = 201 ∧
    ((machine c).out s e).handed = true then 1 else 0

/-- A request that completes an upload of the kind finds credit. -/
def FindsCredit (kind : Kind) (s : State) (e : Event) : Prop :=
  completes c s e = some kind → Metrics.check c.metrics (s.at e).meters (s.at e).now (c.limits kind.metric)
    (some c.uid) kind.metric ≠ some none

instance (kind : Kind) (s : State) (e : Event) : Decidable (FindsCredit c kind s e) :=
  inferInstanceAs (Decidable (_ → _))

/-- The key of the user's credit. -/
def creditKey (kind : Kind) : String := Metrics.userKey (some c.uid) kind.metric

/-! ### Keys -/

/-- The keys of names that begin with different letters are different. -/
theorem key_ne {name name' : String} {a b : Char} (h : name.toList[0]? = some a)
    (h' : name'.toList[0]? = some b) (hne : a ≠ b) (labels labels' : List String) :
    Metrics.key name labels ≠ Metrics.key name' labels' := by
  have hletter : ∀ {name : String} {a : Char} (labels : List String), name.toList[0]? = some a →
      (Metrics.key name labels).toList[4]? = some a := by
    intro name a labels h
    obtain ⟨rest, hrest⟩ : ∃ rest, name.toList = a :: rest := by
      cases hname : name.toList with
      | nil => simp [hname] at h
      | cons x rest =>
          rw [hname] at h
          cases h
          exact ⟨rest, rfl⟩
    simp [Metrics.key, hrest]
  intro heq
  have hfirst := hletter labels h
  rw [heq, hletter labels' h'] at hfirst
  exact hne (Option.some.inj hfirst).symm

/-- A call of `store` leaves the keys of other metrics as they are. -/
theorem store_of_ne {conf : MetricConf} {name : String} {k : String}
    (h : ∀ labels, k ≠ Metrics.key name labels) (meters : Meters) (now : ℕ) (limit : ℤ)
    (uid : Option String) (labels : List String) (value : Option ℤ) :
    (Metrics.store conf meters now limit uid name labels value).1 k = meters k := by
  unfold Metrics.store
  cases conf.metrics name with
  | none => rfl
  | some metric =>
      have hne : k ≠ Metrics.storeKey conf metric uid name labels := h _
      cases hstyle : metric.style with
      | grant =>
          simp only [hstyle]
          exact Metrics.apply_of_ne _ _ _ hne _ _
      | counter =>
          simp only [hstyle]
          exact Keyspace.incrBy_of_ne _ _ hne _
      | gauge =>
          cases value with
          | none => simp only [hstyle]
          | some value =>
              simp only [hstyle]
              exact (Keyspace.set_apply ..).trans (if_neg hne)

theorem creditKey_ne_bytes (kind : Kind) (labels : List String) :
    creditKey c kind ≠ Metrics.key "file_upload_bytes_total" labels := by
  cases kind with
  | photo => exact key_ne (a := 'p') (b := 'f') rfl rfl (by decide) _ _
  | video => exact key_ne (a := 'v') (b := 'f') rfl rfl (by decide) _ _

theorem creditKey_ne_metric {kind kind' : Kind} (h : kind' ≠ kind) (labels : List String) :
    creditKey c kind ≠ Metrics.key kind'.metric labels := by
  cases kind with
  | photo =>
      cases kind' with
      | photo => exact absurd rfl h
      | video => exact key_ne (a := 'p') (b := 'v') rfl rfl (by decide) _ _
  | video =>
      cases kind' with
      | photo => exact key_ne (a := 'v') (b := 'p') rfl rfl (by decide) _ _
      | video => exact absurd rfl h

/-! ### One request -/

section step

variable {c} {kind : Kind} {metric bytes : Metric} {s : State} {e : Event} {es : List Event}

/-- What is written on the key depends on what it holds. -/
theorem apply_congr (credit : Metrics.Credit) {meters meters' : Meters} {now : ℕ} {k : String}
    (h : meters k = meters' k) (limit : ℤ) (period : Period) :
    (credit.apply meters now k limit period).1 k = (credit.apply meters' now k limit period).1 k := by
  cases credit with
  | renew => exact (Keyspace.set_self ..).trans (Keyspace.set_self ..).symm
  | refuse => exact h
  | spend =>
      have hget := Keyspace.get_congr h now
      show meters.incrBy now k (-1) k = meters'.incrBy now k (-1) k
      cases hlive : meters'.get now k with
      | none =>
          rw [hlive] at hget
          rw [Keyspace.incrBy_none hget, Keyspace.incrBy_none hlive, Keyspace.set_self,
            Keyspace.set_self]
      | some v =>
          rw [hlive] at hget
          obtain ⟨expires, hentry, hset⟩ := Keyspace.incrBy_some hget (-1)
          obtain ⟨expires', hentry', hset'⟩ := Keyspace.incrBy_some hlive (-1)
          cases hentry.symm.trans (h.trans hentry')
          rw [hset, hset', Keyspace.set_self, Keyspace.set_self]

/-- The counter of the bytes takes no credit. -/
theorem bytes_key (s : State) (file : FileMeta) :
    (Metrics.store c.metrics s.meters s.now (c.limits "file_upload_bytes_total") none
      "file_upload_bytes_total" ["ctype=" ++ file.ctype.getD "None"] file.size).1 (creditKey c kind) =
      s.meters (creditKey c kind) :=
  store_of_ne (creditKey_ne_bytes c kind) ..

/-- Counting a file that is not of the kind leaves its credit as it is. -/
theorem count_other {file : FileMeta} (h : kindOf file.ctype ≠ some kind) :
    (count c s file).1 (creditKey c kind) = s.meters (creditKey c kind) := by
  have hbytes := @bytes_key c kind s file
  unfold count
  cases hstore : Metrics.store c.metrics s.meters s.now (c.limits "file_upload_bytes_total") none
      "file_upload_bytes_total" ["ctype=" ++ file.ctype.getD "None"] file.size with
  | mk meters stored =>
      rw [hstore] at hbytes
      cases stored with
      | none => exact hbytes
      | some stored =>
          cases hkind : kindOf file.ctype with
          | none => exact hbytes
          | some kind' =>
              have hne : kind' ≠ kind := by
                rintro rfl
                exact h hkind
              exact (store_of_ne (creditKey_ne_metric c hne) ..).trans hbytes

/-- Counting a file of the kind does what `store` does on its credit. -/
theorem count_same (hmetric : c.metrics.metrics kind.metric = some metric)
    (hstyle : metric.style = .grant) (hscope : metric.scope = .user)
    (hbytes : c.metrics.metrics "file_upload_bytes_total" = some bytes)
    (hcounter : bytes.style = .counter) {file : FileMeta} (h : kindOf file.ctype = some kind) :
    (count c s file).2 = true ∧ (count c s file).1 (creditKey c kind) =
      ((Metrics.credit (c.limits kind.metric) (s.meters.get s.now (creditKey c kind))).apply s.meters
        s.now (creditKey c kind) (c.limits kind.metric) metric.period).1 (creditKey c kind) := by
  have hkey := @bytes_key c kind s file
  unfold count
  cases hstore : Metrics.store c.metrics s.meters s.now (c.limits "file_upload_bytes_total") none
      "file_upload_bytes_total" ["ctype=" ++ file.ctype.getD "None"] file.size with
  | mk meters stored =>
      have hstored : stored = some true := by
        unfold Metrics.store at hstore
        rw [hbytes] at hstore
        simp only [hcounter] at hstore
        exact (congrArg Prod.snd hstore).symm
      subst hstored
      rw [hstore] at hkey
      simp only [h]
      rw [Metrics.store_eq hmetric hstyle hscope]
      have hget := Keyspace.get_congr hkey s.now
      refine ⟨rfl, ?_⟩
      show ((Metrics.credit (c.limits kind.metric) (meters.get s.now (creditKey c kind))).apply meters
        s.now (creditKey c kind) (c.limits kind.metric) metric.period).1 (creditKey c kind) = _
      rw [hget]
      exact apply_congr _ hkey _ _

theorem next_now : ((machine c).next s e).now = s.now + e.elapsed := by
  obtain ⟨elapsed, call⟩ := e
  cases call <;> rfl

theorem completes_eq_some (h : completes c s e = some kind) : ∃ elapsed fileId file,
    e = ⟨elapsed, .uploadComplete fileId "done"⟩ ∧ kindOf file.ctype = some kind ∧
      s.files.get (s.now + elapsed) (fileKey c.uid fileId) = some file := by
  obtain ⟨elapsed, call⟩ := e
  cases call with
  | getUploadUrl body found => cases h
  | uploadComplete fileId status =>
      simp only [completes] at h
      split_ifs at h with hdone
      obtain ⟨file, hfile, hkind⟩ := Option.bind_eq_some_iff.mp h
      exact ⟨elapsed, fileId, file, by rw [hdone], hkind, hfile⟩

/-- A request that completes nothing of the kind leaves its credit as it is. -/
theorem next_other (h : completes c s e ≠ some kind) :
    ((machine c).next s e).meters (creditKey c kind) = s.meters (creditKey c kind) := by
  obtain ⟨elapsed, call⟩ := e
  cases call with
  | getUploadUrl body found => rfl
  | uploadComplete fileId status =>
      show (uploadComplete c (s.at ⟨elapsed, .uploadComplete fileId status⟩) fileId status).1
        (creditKey c kind) = _
      unfold uploadComplete
      cases hfile : s.files.get (s.now + elapsed) (fileKey c.uid fileId) with
      | none =>
          simp only [State.at, hfile]
      | some file =>
          by_cases hdone : status = "done"
          · subst hdone
            have hkind : kindOf file.ctype ≠ some kind := by
              intro hkind
              exact h (by simp [completes, State.at, hfile, hkind])
            have hcount := @count_other c kind (s.at ⟨elapsed, .uploadComplete fileId "done"⟩) _ hkind
            simp only [State.at, hfile, if_true]
            cases hpair : count c (s.at ⟨elapsed, .uploadComplete fileId "done"⟩) file with
            | mk meters stored =>
                rw [hpair] at hcount
                simp only [State.at] at hpair
                rw [hpair]
                cases stored with
                | true => exact hcount
                | false => exact hcount
          · simp only [State.at, hfile, hdone, if_false]

/-- A request that completes a file of the kind is accepted, and does what `store` does on the credit. -/
theorem next_completes (hmetric : c.metrics.metrics kind.metric = some metric)
    (hstyle : metric.style = .grant) (hscope : metric.scope = .user)
    (hbytes : c.metrics.metrics "file_upload_bytes_total" = some bytes)
    (hcounter : bytes.style = .counter) (h : completes c s e = some kind) :
    accepts c kind s e = 1 ∧ ((machine c).next s e).meters (creditKey c kind) =
      ((Metrics.credit (c.limits kind.metric)
        (s.meters.get (s.now + e.elapsed) (creditKey c kind))).apply s.meters (s.now + e.elapsed)
        (creditKey c kind) (c.limits kind.metric) metric.period).1 (creditKey c kind) := by
  obtain ⟨elapsed, fileId, file, rfl, hkind, hfile⟩ := completes_eq_some h
  obtain ⟨htrue, hkey⟩ := @count_same c kind metric bytes
    (s.at ⟨elapsed, .uploadComplete fileId "done"⟩) hmetric hstyle hscope hbytes hcounter file hkind
  have hcomplete : uploadComplete c (s.at ⟨elapsed, .uploadComplete fileId "done"⟩) fileId "done" =
      ((count c (s.at ⟨elapsed, .uploadComplete fileId "done"⟩) file).1,
        ⟨⟨Dict.ofList [("file_id", .str fileId)], 201⟩, true⟩) := by
    unfold uploadComplete
    cases hpair : count c (s.at ⟨elapsed, .uploadComplete fileId "done"⟩) file with
    | mk meters stored =>
        rw [hpair] at htrue
        subst htrue
        simp only [State.at, hfile, if_true]
        simp only [State.at] at hpair
        rw [hpair]
  have hstep : (machine c).step s ⟨elapsed, .uploadComplete fileId "done"⟩ =
      ({ s.at ⟨elapsed, .uploadComplete fileId "done"⟩ with
        meters := (count c (s.at ⟨elapsed, .uploadComplete fileId "done"⟩) file).1 },
        ⟨⟨Dict.ofList [("file_id", .str fileId)], 201⟩, true⟩) := by
    simp only [machine, hcomplete]
  refine ⟨?_, ?_⟩
  · rw [accepts, Machine.out, hstep]
    exact if_pos ⟨h, rfl, rfl⟩
  · rw [Machine.next, hstep]
    exact hkey

/-! ### One period -/

theorem findsCredit_of_none (hmetric : c.metrics.metrics kind.metric = some metric)
    (hstyle : metric.style = .grant) (hget : s.meters.get (s.now + e.elapsed) (creditKey c kind) = none) :
    FindsCredit c kind s e := by
  intro _
  show Metrics.check c.metrics s.meters (s.now + e.elapsed) (c.limits kind.metric) (some c.uid)
    kind.metric ≠ some none
  rw [Metrics.check_eq hmetric hstyle]
  have hkey : s.meters.get (s.now + e.elapsed) (Metrics.userKey (some c.uid) kind.metric) = none := hget
  simp [hkey]

/-- Where the key holds less than the limit, there is credit when it is positive. -/
theorem findsCredit_iff (hmetric : c.metrics.metrics kind.metric = some metric)
    (hstyle : metric.style = .grant) {current : ℤ} (h : completes c s e = some kind)
    (hget : s.meters.get (s.now + e.elapsed) (creditKey c kind) = some current)
    (hbelow : current < c.limits kind.metric) : FindsCredit c kind s e ↔ 0 < current := by
  have hcheck : Metrics.check c.metrics s.meters (s.now + e.elapsed) (c.limits kind.metric) (some c.uid)
      kind.metric = some (if 0 < current then some current else none) := by
    have hkey : s.meters.get (s.now + e.elapsed) (Metrics.userKey (some c.uid) kind.metric) =
      some current := hget
    rw [Metrics.check_eq hmetric hstyle, hkey, Option.getD_some, if_neg (by omega)]
  have hiff : FindsCredit c kind s e ↔ Metrics.check c.metrics s.meters (s.now + e.elapsed)
      (c.limits kind.metric) (some c.uid) kind.metric ≠ some none :=
    ⟨fun hfinds => hfinds h, fun hfinds _ => hfinds⟩
  rw [hiff, hcheck]
  by_cases hpos : 0 < current
  · simp [hpos]
  · simp [hpos]

/-- While the key lives, no more uploads are accepted than it says just when each finds credit. -/
theorem total_of_entry (hmetric : c.metrics.metrics kind.metric = some metric)
    (hstyle : metric.style = .grant) (hscope : metric.scope = .user)
    (hbytes : c.metrics.metrics "file_upload_bytes_total" = some bytes)
    (hcounter : bytes.style = .counter) {current : ℤ} {expires : Option ℕ}
    (hentry : s.meters (creditKey c kind) = some ⟨current, expires⟩) (hzero : 0 ≤ current)
    (hbelow : current < c.limits kind.metric) (hlive : ∀ d ∈ expires, s.now + duration es < d) :
    ((machine c).total (accepts c kind) s es : ℤ) ≤ current ↔
      (machine c).Along (FindsCredit c kind) s es := by
  induction es generalizing s current with
  | nil => exact ⟨fun _ => trivial, fun _ => by simpa using hzero⟩
  | cons e es ih =>
      have hduration : duration (e :: es) = e.elapsed + duration es := rfl
      have hrest : ∀ d ∈ expires, ((machine c).next s e).now + duration es < d := by
        intro d hd
        have := hlive d hd
        rw [next_now]
        omega
      rw [Machine.total_cons, Machine.along_cons]
      push_cast
      by_cases hkind : completes c s e = some kind
      · have hget : s.meters.get (s.now + e.elapsed) (creditKey c kind) = some current := by
          apply Keyspace.get_eq_some.mpr ⟨expires, hentry, ?_⟩
          intro d hd
          have := hlive d hd
          omega
        obtain ⟨hone, hnext⟩ := next_completes hmetric hstyle hscope hbytes hcounter hkind
        rw [hone, findsCredit_iff hmetric hstyle hkind hget hbelow]
        rcases Int.lt_or_le 0 current with hpos | hnone
        · have hspend : ((machine c).next s e).meters (creditKey c kind) =
              some ⟨current - 1, expires⟩ := by
            have hcredit : Metrics.credit (c.limits kind.metric)
                (s.meters.get (s.now + e.elapsed) (creditKey c kind)) = .spend := by
              rw [hget]
              simp only [Metrics.credit]
              rw [if_neg (by omega), if_neg (by omega)]
            obtain ⟨expires', hentry', hset⟩ := Keyspace.incrBy_some hget (-1)
            cases hentry.symm.trans hentry'
            rw [hnext, hcredit]
            simp only [Metrics.Credit.apply, hset, Keyspace.set_self]
            rfl
          have hih := ih hspend (by omega) (by omega) hrest
          constructor
          · intro h
            exact ⟨hpos, hih.mp (by omega)⟩
          · rintro ⟨-, h⟩
            have := hih.mpr h
            omega
        · constructor
          · intro h
            omega
          · rintro ⟨h, -⟩
            omega
      · have hzero' : accepts c kind s e = 0 := if_neg fun h => hkind h.1
        have hih := ih ((next_other hkind).trans hentry) hzero hbelow hrest
        rw [hzero', Nat.cast_zero, zero_add, hih]
        exact ⟨fun h => ⟨fun hcompletes => absurd hcompletes hkind, h⟩, fun h => h.2⟩

/-- For a user with a limit on a kind of uploads: from the start of a period, and for less time than it
takes, no more uploads are accepted than the limit says just when every completion finds credit. -/
theorem uploads_iff (hmetric : c.metrics.metrics kind.metric = some metric)
    (hstyle : metric.style = .grant) (hscope : metric.scope = .user)
    (hbytes : c.metrics.metrics "file_upload_bytes_total" = some bytes)
    (hcounter : bytes.style = .counter) (hlimit : 1 ≤ c.limits kind.metric)
    (hstart : s.meters.get s.now (creditKey c kind) = none)
    (hperiod : ∀ seconds ∈ metric.period.seconds, duration es < seconds) :
    ((machine c).total (accepts c kind) s es : ℤ) ≤ c.limits kind.metric ↔
      (machine c).Along (FindsCredit c kind) s es := by
  induction es generalizing s with
  | nil => exact ⟨fun _ => trivial, fun _ => by rw [Machine.total_nil, Nat.cast_zero]; omega⟩
  | cons e es ih =>
      have hduration : duration (e :: es) = e.elapsed + duration es := rfl
      have hget : s.meters.get (s.now + e.elapsed) (creditKey c kind) = none := by
        by_contra hsome
        obtain ⟨v, hv⟩ := Option.ne_none_iff_exists'.mp hsome
        rw [Keyspace.get_of_le hv (Nat.le_add_right _ _)] at hstart
        cases hstart
      have hrest : ∀ seconds ∈ metric.period.seconds, duration es < seconds := by
        intro seconds hseconds
        have := hperiod seconds hseconds
        omega
      have hfinds := @findsCredit_of_none c kind metric s e hmetric hstyle hget
      rw [Machine.total_cons, Machine.along_cons]
      push_cast
      by_cases hkind : completes c s e = some kind
      · obtain ⟨hone, hnext⟩ := next_completes hmetric hstyle hscope hbytes hcounter hkind
        have hentry : ((machine c).next s e).meters (creditKey c kind) =
            some ⟨c.limits kind.metric - 1, metric.period.seconds.map (s.now + e.elapsed + ·)⟩ := by
          rw [hnext, hget]
          exact Keyspace.set_self ..
        have hlive : ∀ d ∈ metric.period.seconds.map (s.now + e.elapsed + ·),
            ((machine c).next s e).now + duration es < d := by
          intro d hd
          obtain ⟨seconds, hseconds, rfl⟩ := Option.map_eq_some_iff.mp hd
          have := hrest seconds hseconds
          rw [next_now]
          show s.now + e.elapsed + duration es < s.now + e.elapsed + seconds
          omega
        have htotal := total_of_entry hmetric hstyle hscope hbytes hcounter hentry (by omega) (by omega)
          hlive
        rw [hone, ← htotal]
        constructor
        · intro h
          exact ⟨hfinds, by omega⟩
        · rintro ⟨-, h⟩
          omega
      · have hzero : accepts c kind s e = 0 := if_neg fun h => hkind h.1
        have hsame : ((machine c).next s e).meters.get ((machine c).next s e).now (creditKey c kind) =
            none := by
          rw [next_now, Keyspace.get_congr (next_other hkind), hget]
        have hih := ih hsame hrest
        rw [hzero, Nat.cast_zero, zero_add, hih]
        exact ⟨fun h => ⟨hfinds, h⟩, fun h => h.2⟩

end step

/-! ### Uploads in a row -/

/-- One photo and one video a day. -/
def exampleSetting : Setting where
  metrics := ⟨fun name => if name = "file_upload_bytes_total" then some { style := .counter } else some {},
    "i-0001"⟩
  limits name := if name = "photo_daily_total" ∨ name = "video_daily_total" then 1 else 1000
  cacheTtl := 1500
  unicode := asciiLib
  uid := "x-uid00001"

/-- No credit is taken, and nothing is kept. -/
def exampleStart : State := ⟨Keyspace.empty, Expiring.empty, 100⟩

/-- An URL for a photo in an album, from a volume on S3. -/
def exampleRequest (fileId : String) : Event where
  elapsed := 5
  call := .getUploadUrl
    { storageId := .str "x-75023275", parentType := some "album", parentId := .str "x-album001",
      name := some "photo.jpeg", contentType := some "image/jpeg", size := some 100 }
    { vendor := some "aws", pictures := some 3, permitted := true, fileId := fileId,
      answer := ⟨Dict.ofList [("uploadUrl", .str "https://storage/"), ("fields", .none)], 201⟩ }

/-- The frontend reports the upload. -/
def exampleDone (fileId : String) : Event := ⟨5, .uploadComplete fileId "done"⟩

/-- One photo is within the limit. -/
theorem onePhoto : ((machine exampleSetting).total (accepts exampleSetting .photo) exampleStart
    [exampleRequest "f-Aa000001", exampleDone "f-Aa000001", exampleRequest "f-Aa000002"] : ℤ) ≤ 1 := by
  refine (@uploads_iff exampleSetting .photo {} { style := .counter } exampleStart
    [exampleRequest "f-Aa000001", exampleDone "f-Aa000001", exampleRequest "f-Aa000002"]
    rfl rfl rfl rfl rfl (by decide +kernel) rfl ?_).mpr ?_
  · intro seconds hseconds
    cases hseconds
    decide
  · exact ⟨by decide +kernel, by decide +kernel, by decide +kernel, trivial⟩

/-- Two URLs are issued before a photo is reported, and both photos are accepted. -/
theorem two_accepted : exampleSetting.limits Kind.photo.metric = 1 ∧
    (machine exampleSetting).total (accepts exampleSetting .photo) exampleStart
      [exampleRequest "f-Aa000001", exampleRequest "f-Aa000002", exampleDone "f-Aa000001",
        exampleDone "f-Aa000002"] = 2 := by
  decide +kernel

end StorageAPI

end Apicrud
