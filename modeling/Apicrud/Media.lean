import Apicrud.Context
import Apicrud.Machine

/-! # Media

The worker behind uploaded photos and the reader of an album: `MediaProcessing.photo`, which stores an
image in the sizes of its album and drops an original that is too tall, and `StorageAPI.fetch_album_meta`,
which publishes the addresses of what it takes to be stored.

The application's own models are records with the columns that these two read; those that are filled from
EXIF data, and the checksums, the tiny thumbnail, the category and the log are left out.  Pillow is a
parameter.  What the storage vendor refuses is part of the event. -/

namespace Apicrud

namespace Media

/-! ### Records -/

/-- What ends `photo` or `fetch_album_meta` early. -/
inductive Failure where
  /-- `MediaUploadError` -/
  | mediaUpload (message : String)
  | other
deriving DecidableEq, Repr

/-- `storage`, with the vendor of its credentials. -/
structure Storage where
  cdnUri : String
  bucket : String
  vendor : String
  status : String
deriving DecidableEq, Repr

/-- `album` -/
structure Album where
  sizes : String
  coverId : Option String
deriving DecidableEq, Repr

/-- `picture` -/
structure Picture where
  id : String
  name : String
  caption : Option String
  path : String
  uid : String
  formatOriginal : String
  duration : Option ℕ
  height : Option ℕ
  width : Option ℕ
  size : Option ℕ
  status : String
  storageId : String
deriving DecidableEq, Repr

/-- `album_content` -/
structure AlbumContent where
  albumId : String
  pictureId : String
  rank : ℕ
deriving DecidableEq, Repr

/-- The rows, and the objects of each bucket. -/
structure Library where
  storages : String → Option Storage
  albums : String → Option Album
  pictures : List Picture
  contents : List AlbumContent
  objects : String → String → Option String

/-- What `get_upload_url` keeps about a file. -/
structure Meta where
  fid : String
  name : String
  path : String
  ctype : String
  sid : String
  pid : String
  uid : String
  size : Option ℕ
deriving DecidableEq, Repr

/-- An opened image. -/
structure Image where
  /-- what Pillow works on -/
  data : String
  width : ℕ
  height : ℕ
  positive : 0 < height

/-- Pillow; `none` where it raises. -/
structure Imaging where
  /-- `Image.open`, and what is read of its EXIF data -/
  opened : String → Option Image
  /-- `resize` to a width and a height, and `save` in a format -/
  resized : String → ℤ → ℤ → String → Option String

/-- What the two calls are configured with. -/
structure Setting where
  imaging : Imaging
  /-- `Grants.get('photo_res_max', uid)` -/
  photoResMax : String → ℤ

/-- `MIME_VIDEO_TYPES` -/
def mimeVideoTypes : List String := ["mp4", "mpeg"]

/-! ### Names of objects -/

/-- `'%s.%s' % (path, fmt)` -/
def whole (path fmt : String) : String := path ++ "." ++ fmt

/-- `'%s.%d.%s' % (path, res, fmt)` -/
def scaled (path : String) (res : ℤ) (fmt : String) : String :=
  path ++ "." ++ toString res ++ "." ++ fmt

/-- `[int(x) for x in album.sizes.split(',')]`; `none` where it raises. -/
def Album.sizeList (album : Album) : Option (List ℤ) := (Text.split album.sizes ',').mapM Text.int

namespace Library

variable (l : Library)

/-- The picture with an identifier. -/
def picture (id : String) : Option Picture := l.pictures.find? fun p => p.id = id

/-- `album.pictures` -/
def picturesOf (albumId : String) : List Picture :=
  (l.contents.filter fun c => c.albumId = albumId).filterMap fun c => l.picture c.pictureId

/-- `query(Storage).filter_by(id, status='active').one()`: there is no volume where nothing is found. -/
def volume (sid : String) : Option Storage := (l.storages sid).filter fun s => s.status = "active"

/-- The library with one object changed. -/
def setObject (bucket key : String) (content : Option String) : Library :=
  { l with
    objects := Function.update l.objects bucket (Function.update (l.objects bucket) key content) }

/-- `get_object`: `none` for a vendor that is not supported. -/
def getObject (refused : List String) (sid key : String) : Except Failure (Option String) :=
  match l.volume sid with
  | none => .error .other
  | some storage =>
      if storage.vendor ≠ "aws" then .ok none
      else if key ∈ refused then .error .other
      else
        match l.objects storage.bucket key with
        | none => .error .other
        | some content => .ok (some content)

/-- `put_object`: what it returns is falsy for a vendor that is not supported. -/
def putObject (refused : List String) (sid key content : String) : Except Failure (Library × Bool) :=
  match l.volume sid with
  | none => .error .other
  | some storage =>
      if storage.vendor ≠ "aws" then .ok (l, false)
      else if key ∈ refused then .error .other
      else .ok (l.setObject storage.bucket key (some content), true)

/-- `del_object` -/
def delObject (refused : List String) (sid key : String) : Except Failure Library :=
  match l.volume sid with
  | none => .error .other
  | some storage =>
      if storage.vendor ≠ "aws" then .ok l
      else if key ∈ refused then .error .other
      else .ok (l.setObject storage.bucket key none)

/-- `db_session.add(record)`, committed; `none` for an identifier that is taken. -/
def addPicture (p : Picture) : Option Library :=
  if (l.picture p.id).isSome then none else some { l with pictures := l.pictures ++ [p] }

/-- The picture is put at the end of its album, and is its cover if it is the first one. -/
def addToAlbum (info : Meta) (album : Album) : Library :=
  { l with
    contents := l.contents ++ [⟨info.pid, info.fid, (l.picturesOf info.pid).length + 1⟩]
    albums := if l.picturesOf info.pid = [] ∨ album.coverId = none then
        Function.update l.albums info.pid (some { album with coverId := some info.fid })
      else l.albums }

end Library

/-! ### The worker -/

/-- The record of a photo. -/
def Meta.record (info : Meta) (img : Image) : Picture where
  id := info.fid
  name := info.name
  caption := none
  path := info.path
  uid := info.uid
  formatOriginal := info.ctype
  duration := none
  height := some img.height
  width := some img.width
  size := info.size
  status := "active"
  storageId := info.sid

/-- The loop of `photo` over the sizes. -/
def generate (set : Setting) (refused : List String) (info : Meta) (img : Image) :
    List ℤ → Library → Library × Except Failure Unit
  | [], l => (l, .ok ())
  | alt_size :: sizes, l =>
      if (img.height : ℤ) ≤ alt_size then generate set refused info img sizes l
      else
        -- the quotient of two integers is truncated
        let width := (img.width * alt_size).tdiv img.height
        match set.imaging.resized img.data width alt_size info.ctype with
        | none => (l, .error .other)
        | some content =>
            match l.putObject refused info.sid (scaled info.path alt_size info.ctype) content with
            | .error e => (l, .error e)
            | .ok (l, false) => (l, .error (.mediaUpload "put_object failed"))
            | .ok (l, true) => generate set refused info img sizes l

/-- The end of `photo`: the additional sizes are generated, and an original above the grant is thrown away
to stay in budget. -/
def storeSizes (set : Setting) (refused : List String) (l : Library) (info : Meta) (img : Image)
    (album : Album) : Library × Except Failure Unit :=
  match album.sizeList with
  | none => (l, .error .other)
  | some sizes =>
      match generate set refused info img sizes l with
      | (l, .error e) => (l, .error e)
      | (l, .ok ()) =>
          if set.photoResMax info.uid < img.height then
            match l.delObject refused info.sid (whole info.path info.ctype) with
            | .error e => (l, .error e)
            | .ok l => (l, .ok ())
          else (l, .ok ())

/-- `MediaProcessing.photo`: what was committed stays when a later part raises. -/
def photo (set : Setting) (refused : List String) (l : Library) (info : Meta) :
    Library × Except Failure Unit :=
  match l.getObject refused info.sid (whole info.path info.ctype) with
  | .error e => (l, .error e)
  | .ok none => (l, .error (.mediaUpload ("get_object failed for path=" ++ info.path)))
  | .ok (some raw) =>
      if raw = "" then (l, .error (.mediaUpload ("get_object failed for path=" ++ info.path)))
      else
        match set.imaging.opened raw with
        | none => (l, .error .other)
        | some img =>
            match l.addPicture (info.record img) with
            | none => (l, .error .other)
            | some l =>
                match l.albums info.pid with
                | none => (l, .error .other)
                | some album => storeSizes set refused (l.addToAlbum info album) info img album

/-! ### The reader -/

/-- An entry of `imageSet`. -/
structure Source where
  srcSet : String
  media : String
deriving DecidableEq, Repr

/-- A descriptor of a picture of the album. -/
structure Item where
  id : String
  description : Option String
  duration : Option ℕ
  height : Option ℕ
  imageSet : List Source
  name : String
  original : String
  path : String
  size : Option ℕ
  thumbnail : String
  type : String
  uid : String
  width : Option ℕ
deriving DecidableEq, Repr

/-- `picture.height`, which is falsy when it is not known. -/
def Picture.tall (p : Picture) : ℕ := p.height.getD 0

/-- What `fetch_album_meta` makes of one picture; there is nothing for a video. -/
def itemOf (l : Library) (max_height : ℤ) (album : Album) (thumbnail_height : ℤ) (p : Picture) :
    Except Failure (Option Item) :=
  match l.storages p.storageId, album.sizeList with
  | some storage, some all =>
      let uri_path := storage.cdnUri ++ "/" ++ p.path
      let fmt := p.formatOriginal
      let sizes := all.filter fun s => p.tall = 0 ∨ s ≤ (p.tall : ℤ)
      if fmt ∈ mimeVideoTypes then .ok none
      else
        let item (last : List Source) : Item :=
          { id := p.id
            description := p.caption
            duration := p.duration
            height := p.height
            imageSet := sizes.map (fun res => ⟨scaled uri_path res fmt,
              "(max-width: " ++ toString res ++ "px)"⟩) ++ last
            name := p.name
            original := if p.tall = 0 ∨ (p.tall : ℤ) ≤ max_height then whole uri_path fmt
              else scaled uri_path max_height fmt
            path := p.path
            size := p.size
            thumbnail := scaled uri_path thumbnail_height fmt
            -- no video gets here
            type := "image/" ++ fmt
            uid := p.uid
            width := p.width }
        if p.tall ≠ 0 ∧ (p.tall : ℤ) ≤ max_height then
          .ok (some (item [⟨whole uri_path fmt, "(max-width: " ++ toString p.tall ++ "px)"⟩,
            ⟨whole uri_path fmt, "(min-width: " ++ toString p.tall ++ "px)"⟩]))
        else
          match sizes.getLast? with
          | none => .error .other
          | some res => .ok (some (item [⟨scaled uri_path res fmt,
              "(min-width: " ++ toString res ++ "px)"⟩]))
  | _, _ => .error .other

/-- The descriptors of some pictures, up to the first that raises. -/
def itemsOf (l : Library) (max_height : ℤ) (album : Album) (thumbnail_height : ℤ) :
    List Picture → Except Failure (List Item)
  | [] => .ok []
  | p :: ps =>
      match itemOf l max_height album thumbnail_height p with
      | .error e => .error e
      | .ok item =>
          match itemsOf l max_height album thumbnail_height ps with
          | .error e => .error e
          | .ok items => .ok (item.toList ++ items)

/-- `StorageAPI.fetch_album_meta`: the query does not join the pictures to the album, so that any active
one will do. -/
def fetchAlbumMeta (set : Setting) (l : Library) (viewer albumId : String) (thumbnail_height : ℤ) :
    Except Failure (List Item) :=
  match l.albums albumId with
  | none => .ok []
  | some album =>
      if ∃ p ∈ l.pictures, p.status = "active" then
        itemsOf l (set.photoResMax viewer) album thumbnail_height (l.picturesOf albumId)
      else .ok []

/-! ### Uploads and the worker's calls -/

/-- What happens to a library. -/
inductive Event where
  /-- the client sends the file to the address that it was given -/
  | upload (info : Meta) (content : String)
  | photo (info : Meta) (refused : List String)

/-- The upload is stored under the name of the original. -/
def upload (l : Library) (info : Meta) (content : String) : Library :=
  match l.storages info.sid with
  | none => l
  | some storage => l.setObject storage.bucket (whole info.path info.ctype) (some content)

/-- The library, as it is changed by uploads and by the worker. -/
def machine (set : Setting) : Machine Library Event (Except Failure Unit) where
  step l
    | .upload info content => (upload l info content, .ok ())
    | .photo info refused => photo set refused l info

end Media

end Apicrud
