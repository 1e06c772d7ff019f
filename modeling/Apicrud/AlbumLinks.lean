import Apicrud.Media

/-! # The links of an album

The worker decides which objects of a photo are stored, the reader decides which addresses are published,
and each compares the height of the image with the sizes of the album and with the grant on its own.
`links_resolve_iff` says when the two agree, over any run of uploads and calls of the worker. -/

namespace Apicrud

namespace Media

variable {set : Setting} {refused : List String} {l l' : Library} {info other : Meta} {img : Image}
  {raw : String}

/-! ### Objects -/

namespace Library

theorem setObject_self (bucket key : String) (content : Option String) :
    (l.setObject bucket key content).objects bucket key = content := by
  simp [setObject]

theorem setObject_other {key key' : String} (h : key' ≠ key) (bucket bucket' : String)
    (content : Option String) :
    (l.setObject bucket key content).objects bucket' key' = l.objects bucket' key' := by
  by_cases hb : bucket' = bucket
  · rw [hb]
    simp [setObject, h]
  · simp [setObject, hb]

/-- What stays as it was when only objects change. -/
structure SameRows (l l' : Library) : Prop where
  storages : l'.storages = l.storages
  albums : l'.albums = l.albums
  pictures : l'.pictures = l.pictures
  contents : l'.contents = l.contents

theorem setObject_rows (l : Library) (bucket key : String) (content : Option String) :
    l.SameRows (l.setObject bucket key content) := ⟨rfl, rfl, rfl, rfl⟩

theorem SameRows.rfl' : SameRows l l := ⟨rfl, rfl, rfl, rfl⟩

theorem SameRows.trans {l'' : Library} (h : SameRows l l') (h' : SameRows l' l'') : SameRows l l'' :=
  ⟨h'.storages.trans h.storages, h'.albums.trans h.albums, h'.pictures.trans h.pictures,
    h'.contents.trans h.contents⟩

/-- An object that was put is where it was put. -/
theorem putObject_ok {sid key content : String} {fine : Bool}
    (h : l.putObject refused sid key content = .ok (l', fine)) :
    ∃ storage, l.volume sid = some storage ∧
      (fine = true → l' = l.setObject storage.bucket key (some content)) ∧ (fine = false → l' = l) := by
  unfold putObject at h
  split at h
  · cases h
  · rename_i storage hvolume
    refine ⟨storage, hvolume, ?_⟩
    split_ifs at h
    · cases h
      exact ⟨nofun, fun _ => rfl⟩
    · cases h
      exact ⟨fun _ => rfl, nofun⟩

theorem delObject_ok {sid key : String} (h : l.delObject refused sid key = .ok l') :
    l' = l ∨ ∃ bucket, l' = l.setObject bucket key none := by
  unfold delObject at h
  split at h
  · cases h
  · split_ifs at h
    · cases h
      exact .inl rfl
    · cases h
      exact .inr ⟨_, rfl⟩

theorem getObject_ok {sid key : String} (h : l.getObject refused sid key = .ok (some raw)) :
    ∃ storage, l.volume sid = some storage ∧ l.objects storage.bucket key = some raw := by
  unfold getObject at h
  split at h
  · cases h
  · rename_i storage hvolume
    refine ⟨storage, hvolume, ?_⟩
    split_ifs at h
    · cases h
    · split at h
      · cases h
      · rename_i content hcontent
        cases h
        exact hcontent

theorem storages_of_volume {sid : String} {storage : Storage} (h : l.volume sid = some storage) :
    l.storages sid = some storage := (Option.filter_eq_some_iff.mp h).1

end Library

/-! ### Names -/

theorem scaled_ne_whole (path fmt : String) (res : ℤ) : scaled path res fmt ≠ whole path fmt := by
  intro h
  have hlength := congrArg String.length h
  simp only [scaled, whole, String.length_append] at hlength
  have hdot : ".".length = 1 := rfl
  omega

theorem scaled_inj {path fmt : String} {res res' : ℤ} (h : scaled path res fmt = scaled path res' fmt) :
    res = res' := by
  have hlist := congrArg String.toList h
  simp only [scaled, String.toList_append, List.append_assoc, List.append_cancel_left_eq,
    List.append_cancel_right_eq] at hlist
  exact Int.repr_inj.mp (String.toList_injective hlist)

/-- The name is one of the file's: it begins with the path and a dot. -/
def Owns (info : Meta) (key : String) : Prop := (info.path ++ ".").toList <+: key.toList

theorem owns_whole (info : Meta) (fmt : String) : Owns info (whole info.path fmt) :=
  ⟨fmt.toList, by simp [whole]⟩

theorem owns_scaled (info : Meta) (res : ℤ) (fmt : String) : Owns info (scaled info.path res fmt) :=
  ⟨(toString res ++ "." ++ fmt).toList, by simp [scaled]⟩

/-! ### What the worker leaves behind -/

/-- One round of the loop: the size is skipped, or the call ends here, or one more object is stored. -/
theorem generate_cons (alt_size : ℤ) (sizes : List ℤ) (l : Library) :
    ((img.height : ℤ) ≤ alt_size ∧ generate set refused info img (alt_size :: sizes) l =
      generate set refused info img sizes l) ∨
    (alt_size < img.height ∧
      ((∃ e, generate set refused info img (alt_size :: sizes) l = (l, .error e)) ∨
        ∃ storage content, l.volume info.sid = some storage ∧
          generate set refused info img (alt_size :: sizes) l =
            generate set refused info img sizes (l.setObject storage.bucket
              (scaled info.path alt_size info.ctype) (some content)))) := by
  rw [generate]
  by_cases hskip : (img.height : ℤ) ≤ alt_size
  · rw [if_pos hskip]
    exact .inl ⟨hskip, rfl⟩
  · rw [if_neg hskip]
    refine .inr ⟨by omega, ?_⟩
    cases hresized : set.imaging.resized img.data ((img.width * alt_size).tdiv img.height) alt_size
      info.ctype with
    | none =>
        simp only [hresized]
        exact .inl ⟨_, rfl⟩
    | some content =>
        simp only [hresized]
        cases hput : l.putObject refused info.sid (scaled info.path alt_size info.ctype) content with
        | error e =>
            simp only
            exact .inl ⟨e, rfl⟩
        | ok r =>
            obtain ⟨l₁, fine⟩ := r
            obtain ⟨storage, hvolume, hfine, hnot⟩ := Library.putObject_ok hput
            cases fine with
            | false =>
                simp only [hnot rfl]
                exact .inl ⟨_, rfl⟩
            | true =>
                simp only [hfine rfl]
                exact .inr ⟨storage, content, hvolume, rfl⟩

/-- The loop changes objects only. -/
theorem generate_rows (sizes : List ℤ) (l : Library) :
    l.SameRows (generate set refused info img sizes l).1 := by
  induction sizes generalizing l with
  | nil => exact .rfl'
  | cons alt_size sizes ih =>
      rcases generate_cons alt_size sizes l with ⟨_, h⟩ | ⟨_, ⟨e, h⟩ | ⟨storage, content, _, h⟩⟩
      · rw [h]
        exact ih l
      · rw [h]
        exact .rfl'
      · rw [h]
        exact (Library.setObject_rows l _ _ _).trans (ih _)

/-- It changes those of the scaled images only. -/
theorem generate_other {key : String} (hkey : ∀ res, key ≠ scaled info.path res info.ctype)
    (bucket : String) (sizes : List ℤ) (l : Library) :
    (generate set refused info img sizes l).1.objects bucket key = l.objects bucket key := by
  induction sizes generalizing l with
  | nil => rfl
  | cons alt_size sizes ih =>
      rcases generate_cons alt_size sizes l with ⟨_, h⟩ | ⟨_, ⟨e, h⟩ | ⟨storage, content, _, h⟩⟩
      · rw [h]
        exact ih l
      · rw [h]
      · rw [h, ih]
        exact Library.setObject_other (hkey alt_size) ..

/-- A loop that gets to its end has stored the sizes below the height of the image, and no other. -/
theorem generate_stored {storage : Storage} {sizes : List ℤ} {l l' : Library}
    (hvolume : l.volume info.sid = some storage)
    (h : generate set refused info img sizes l = (l', .ok ())) (res : ℤ) :
    (l'.objects storage.bucket (scaled info.path res info.ctype)).isSome ↔
      res ∈ sizes ∧ res < img.height ∨
        (l.objects storage.bucket (scaled info.path res info.ctype)).isSome := by
  induction sizes generalizing l with
  | nil =>
      cases h
      simp
  | cons alt_size sizes ih =>
      rcases generate_cons alt_size sizes l with
        ⟨hskip, hround⟩ | ⟨hbelow, ⟨e, hround⟩ | ⟨storage', content, hvolume', hround⟩⟩
      · rw [hround] at h
        rw [ih hvolume h, List.mem_cons]
        refine or_congr_left (and_congr_left fun hres => ⟨.inr, fun hor => hor.resolve_left ?_⟩)
        omega
      · rw [hround] at h
        cases h
      · rw [hvolume] at hvolume'
        cases hvolume'
        rw [hround] at h
        have hvolume₁ : (l.setObject storage.bucket (scaled info.path alt_size info.ctype)
            (some content)).volume info.sid = some storage := hvolume
        rw [ih hvolume₁ h, List.mem_cons]
        by_cases heq : res = alt_size
        · rw [heq, Library.setObject_self]
          simp [hbelow]
        · have hne : scaled info.path res info.ctype ≠ scaled info.path alt_size info.ctype :=
            fun hname => heq (scaled_inj hname)
          rw [Library.setObject_other hne]
          simp [heq]

/-- What the end of a call leaves when it returns. -/
structure Finished (set : Setting) (l : Library) (info : Meta) (img : Image) (l' : Library)
    (storage : Storage) (sizes : List ℤ) : Prop where
  scaled_iff : ∀ res, (l'.objects storage.bucket (scaled info.path res info.ctype)).isSome ↔
    res ∈ sizes ∧ res < img.height ∨
      (l.objects storage.bucket (scaled info.path res info.ctype)).isSome
  original : (img.height : ℤ) ≤ set.photoResMax info.uid →
    l'.objects storage.bucket (whole info.path info.ctype) =
      l.objects storage.bucket (whole info.path info.ctype)

/-- The end of a call changes objects of the file only. -/
theorem storeSizes_rows (album : Album) :
    l.SameRows (storeSizes set refused l info img album).1 ∧
      ∀ bucket key, ¬ Owns info key →
        (storeSizes set refused l info img album).1.objects bucket key = l.objects bucket key := by
  unfold storeSizes
  cases album.sizeList with
  | none => exact ⟨.rfl', fun _ _ _ => rfl⟩
  | some sizes =>
      have hrows := @generate_rows set refused info img sizes l
      have hother : ∀ bucket key, ¬ Owns info key →
          (generate set refused info img sizes l).1.objects bucket key = l.objects bucket key := by
        intro bucket key hkey
        refine generate_other (fun res hres => hkey ?_) ..
        rw [hres]
        exact owns_scaled info res info.ctype
      simp only
      revert hrows hother
      rcases generate set refused info img sizes l with ⟨l₁, e | ⟨⟩⟩
      · exact fun hrows hother => ⟨hrows, hother⟩
      · intro hrows hother
        simp only
        split_ifs
        · cases hdel : l₁.delObject refused info.sid (whole info.path info.ctype) with
          | error e => exact ⟨hrows, hother⟩
          | ok l₂ =>
              rcases Library.delObject_ok hdel with rfl | ⟨bucket, rfl⟩
              · exact ⟨hrows, hother⟩
              · refine ⟨hrows.trans (Library.setObject_rows ..), fun bucket' key hkey => ?_⟩
                have hne : key ≠ whole info.path info.ctype :=
                  fun heq => hkey (heq ▸ owns_whole info info.ctype)
                exact (Library.setObject_other hne ..).trans (hother bucket' key hkey)
        · exact ⟨hrows, hother⟩

theorem storeSizes_ok {album : Album} {storage : Storage} (hvolume : l.volume info.sid = some storage)
    (h : (storeSizes set refused l info img album).2 = .ok ()) :
    ∃ sizes, album.sizeList = some sizes ∧
      Finished set l info img (storeSizes set refused l info img album).1 storage sizes := by
  unfold storeSizes at h ⊢
  cases hsizes : album.sizeList with
  | none =>
      rw [hsizes] at h
      cases h
  | some sizes =>
      refine ⟨sizes, rfl, ?_⟩
      rw [hsizes] at h
      simp only at h ⊢
      cases hgen : generate set refused info img sizes l with
      | mk l₁ r =>
      rw [hgen] at h
      cases r with
      | error e => cases h
      | ok u =>
      have hstored := generate_stored hvolume hgen
      have hwhole : l₁.objects storage.bucket (whole info.path info.ctype) =
          l.objects storage.bucket (whole info.path info.ctype) := by
        have hother := @generate_other set refused info img _
          (fun res => (scaled_ne_whole info.path info.ctype res).symm) storage.bucket sizes l
        rw [hgen] at hother
        exact hother
      simp only at h ⊢
      split_ifs at h ⊢ with htall
      · cases hdel : l₁.delObject refused info.sid (whole info.path info.ctype) with
        | error e =>
            rw [hdel] at h
            cases h
        | ok l₂ =>
            refine ⟨fun res => ?_, fun hfits => absurd hfits (by omega)⟩
            rcases Library.delObject_ok hdel with rfl | ⟨bucket, rfl⟩
            · exact hstored res
            · rw [Library.setObject_other (scaled_ne_whole info.path info.ctype res)]
              exact hstored res
      · exact ⟨hstored, fun _ => hwhole⟩

/-- What a call of the worker that got as far as to the record of the picture does to the library. -/
structure Worked (l : Library) (info : Meta) (img : Image) (l' : Library) : Prop where
  fresh : l.picture info.fid = none
  storages : l'.storages = l.storages
  sizes : ∀ id, (l'.albums id).map Album.sizes = (l.albums id).map Album.sizes
  pictures : l'.pictures = l.pictures ++ [info.record img]
  contents : ∀ c ∈ l'.contents, c ∈ l.contents ∨ c.albumId = info.pid ∧ c.pictureId = info.fid
  objects : ∀ bucket key, ¬ Owns info key → l'.objects bucket key = l.objects bucket key

theorem Worked.after {l₁ l₂ : Library} (h : Worked l info img l₁) (hrows : l₁.SameRows l₂)
    (hobjects : ∀ bucket key, ¬ Owns info key → l₂.objects bucket key = l₁.objects bucket key) :
    Worked l info img l₂ where
  fresh := h.fresh
  storages := hrows.storages.trans h.storages
  sizes id := by rw [hrows.albums, h.sizes]
  pictures := hrows.pictures.trans h.pictures
  contents c hc := h.contents c (hrows.contents ▸ hc)
  objects bucket key hkey := (hobjects bucket key hkey).trans (h.objects bucket key hkey)

theorem addPicture_some (h : l.addPicture (info.record img) = some l') :
    l.picture info.fid = none ∧ l' = { l with pictures := l.pictures ++ [info.record img] } := by
  unfold Library.addPicture at h
  split_ifs at h with htaken
  cases h
  exact ⟨Option.not_isSome_iff_eq_none.mp htaken, rfl⟩

theorem Worked.addToAlbum {l₁ : Library} {album : Album} (h : Worked l info img l₁)
    (halbum : l₁.albums info.pid = some album) :
    Worked l info img (l₁.addToAlbum info album) where
  fresh := h.fresh
  storages := h.storages
  sizes id := by
    rw [← h.sizes]
    unfold Library.addToAlbum
    simp only
    split_ifs
    · by_cases hid : id = info.pid
      · rw [hid, Function.update_self, halbum]
        rfl
      · rw [Function.update_of_ne hid]
    · rfl
  pictures := h.pictures
  contents c hc := by
    rcases List.mem_append.mp hc with hold | hnew
    · exact h.contents c hold
    · rw [List.mem_singleton] at hnew
      exact .inr ⟨by rw [hnew], by rw [hnew]⟩
  objects := h.objects

/-- A call of the worker ends before it has changed anything, or has stored the picture; and where it
returns, its objects are stored too. -/
theorem photo_cases (set : Setting) (refused : List String) (l : Library) (info : Meta) :
    ((photo set refused l info).1 = l ∧ ∃ e, (photo set refused l info).2 = .error e) ∨
      ∃ img, Worked l info img (photo set refused l info).1 ∧
        ((photo set refused l info).2 = .ok () →
          ∃ storage album sizes, l.storages info.sid = some storage ∧
            l.albums info.pid = some album ∧ album.sizeList = some sizes ∧
            (l.objects storage.bucket (whole info.path info.ctype)).isSome ∧
            Finished set l info img (photo set refused l info).1 storage sizes) := by
  unfold photo
  cases hget : l.getObject refused info.sid (whole info.path info.ctype) with
  | error e => exact .inl ⟨rfl, e, rfl⟩
  | ok content =>
  cases content with
  | none => exact .inl ⟨rfl, _, rfl⟩
  | some raw =>
  obtain ⟨storage, hvolume, hraw⟩ := Library.getObject_ok hget
  simp only
  split_ifs with hempty
  · exact .inl ⟨rfl, _, rfl⟩
  cases set.imaging.opened raw with
  | none => exact .inl ⟨rfl, _, rfl⟩
  | some img =>
  simp only
  cases hadd : l.addPicture (info.record img) with
  | none => exact .inl ⟨rfl, _, rfl⟩
  | some l₁ =>
  obtain ⟨hfresh, rfl⟩ := addPicture_some hadd
  have hworked : Worked l info img { l with pictures := l.pictures ++ [info.record img] } :=
    ⟨hfresh, rfl, fun _ => rfl, rfl, fun c hc => .inl hc, fun _ _ _ => rfl⟩
  refine .inr ⟨img, ?_⟩
  simp only
  cases halbum : l.albums info.pid with
  | none => exact ⟨hworked, nofun⟩
  | some album =>
  have hadded := hworked.addToAlbum halbum
  obtain ⟨hrows, hobjects⟩ := @storeSizes_rows set refused _ info img album
  refine ⟨hadded.after hrows hobjects, fun hok => ?_⟩
  have hvolume₁ : (({ l with pictures := l.pictures ++ [info.record img] } : Library).addToAlbum info
      album).volume info.sid = some storage := hvolume
  obtain ⟨sizes, hsizes, hfinished⟩ := storeSizes_ok hvolume₁ hok
  exact ⟨storage, album, sizes, Library.storages_of_volume hvolume, rfl, hsizes,
    Option.isSome_iff_exists.mpr ⟨raw, hraw⟩, ⟨hfinished.scaled_iff, hfinished.original⟩⟩

/-! ### What the reader publishes -/

/-- The addresses of an item. -/
def Item.links (item : Item) : List String := item.original :: item.imageSet.map Source.srcSet

/-- The address names an object that is stored, in the volume of the picture. -/
def Library.Names (l : Library) (id url : String) : Prop :=
  ∃ p storage key, l.picture id = some p ∧ l.storages p.storageId = some storage ∧
    url = storage.cdnUri ++ "/" ++ key ∧ (l.objects storage.bucket key).isSome

/-- The album is read, and all that its items link to is stored. -/
def Linked (set : Setting) (l : Library) (viewer albumId : String) (thumbnail_height : ℤ) : Prop :=
  ∃ items, fetchAlbumMeta set l viewer albumId thumbnail_height = .ok items ∧
    ∀ item ∈ items, ∀ url ∈ item.links, l.Names item.id url

theorem whole_append (uri path fmt : String) :
    whole (uri ++ "/" ++ path) fmt = uri ++ "/" ++ whole path fmt := by
  simp only [whole, String.append_assoc]

theorem scaled_append (uri path fmt : String) (res : ℤ) :
    scaled (uri ++ "/" ++ path) res fmt = uri ++ "/" ++ scaled path res fmt := by
  simp only [scaled, String.append_assoc]

theorem names_iff {p : Picture} {storage : Storage} {id key : String} (hp : l.picture id = some p)
    (hstorage : l.storages p.storageId = some storage) :
    l.Names id (storage.cdnUri ++ "/" ++ key) ↔ (l.objects storage.bucket key).isSome := by
  constructor
  · rintro ⟨p', storage', key', hp', hstorage', hurl, hkey⟩
    rw [hp] at hp'
    cases hp'
    rw [hstorage] at hstorage'
    cases hstorage'
    have hlist := congrArg String.toList hurl
    simp only [String.toList_append, List.append_cancel_left_eq] at hlist
    rw [String.toList_injective hlist]
    exact hkey
  · exact fun hkey => ⟨p, storage, key, hp, hstorage, rfl, hkey⟩

/-- The reading stops at no picture, and all links are as wanted, if this is so of each picture. -/
theorem itemsOf_iff {m thumbnail_height : ℤ} {album : Album} (P : Item → Prop) (ps : List Picture) :
    (∃ items, itemsOf l m album thumbnail_height ps = .ok items ∧ ∀ item ∈ items, P item) ↔
      ∀ p ∈ ps, ∃ found, itemOf l m album thumbnail_height p = .ok found ∧ ∀ item ∈ found, P item := by
  induction ps with
  | nil => exact ⟨fun _ _ hp => absurd hp List.not_mem_nil, fun _ => ⟨[], rfl, fun _ h => nomatch h⟩⟩
  | cons p ps ih =>
      rw [List.forall_mem_cons, ← ih, itemsOf]
      cases itemOf l m album thumbnail_height p with
      | error e =>
          constructor
          · rintro ⟨_, h, _⟩
            cases h
          · rintro ⟨⟨_, h, _⟩, _⟩
            cases h
      | ok found =>
          cases itemsOf l m album thumbnail_height ps with
          | error e =>
              constructor
              · rintro ⟨_, h, _⟩
                cases h
              · rintro ⟨_, _, h, _⟩
                cases h
          | ok items =>
              constructor
              · rintro ⟨_, h, hall⟩
                cases h
                exact ⟨⟨found, rfl, fun item h => hall item (List.mem_append_left _ (by simpa using h))⟩,
                  items, rfl, fun item h => hall item (List.mem_append_right _ h)⟩
              · rintro ⟨⟨_, h, hfound⟩, _, h', hitems⟩
                cases h
                cases h'
                refine ⟨_, rfl, fun item h => ?_⟩
                rcases List.mem_append.mp h with h | h
                · exact hfound item (by simpa using h)
                · exact hitems item h

/-- What is stored of a picture whose processing is over. -/
structure Stored (l : Library) (p : Picture) (m : ℤ) (storage : Storage) (sizes : List ℤ) : Prop where
  positive : 0 < p.tall
  volume : l.storages p.storageId = some storage
  scaled_iff : ∀ res, (l.objects storage.bucket (scaled p.path res p.formatOriginal)).isSome ↔
    res ∈ sizes ∧ res < p.tall
  original : (p.tall : ℤ) ≤ m → (l.objects storage.bucket (whole p.path p.formatOriginal)).isSome

/-- The worker and the reader agree about a picture. -/
def Agree (m : ℤ) (sizes : List ℤ) (p : Picture) : Prop :=
  p.formatOriginal ∈ mimeVideoTypes ∨
    ((p.tall : ℤ) ∉ sizes ∧ ((p.tall : ℤ) ≤ m ∨ m ∈ sizes))

/-- The sizes that the reader takes are all stored when none is the height itself. -/
theorem Stored.sizes_iff {m : ℤ} {p : Picture} {storage : Storage} {sizes : List ℤ}
    (h : Stored l p m storage sizes) :
    (∀ res ∈ sizes.filter (fun s => p.tall = 0 ∨ s ≤ (p.tall : ℤ)),
      (l.objects storage.bucket (scaled p.path res p.formatOriginal)).isSome) ↔
        (p.tall : ℤ) ∉ sizes := by
  have hpos := h.positive
  constructor
  · intro hall htall
    have hlt := ((h.scaled_iff p.tall).mp (hall p.tall (by simpa using htall))).2
    omega
  · intro htall res hres
    obtain ⟨hmem, hle⟩ := List.mem_filter.mp hres
    have hne : res ≠ p.tall := fun heq => htall (heq ▸ hmem)
    have hle : p.tall = 0 ∨ res ≤ (p.tall : ℤ) := of_decide_eq_true hle
    exact (h.scaled_iff res).mpr ⟨hmem, by omega⟩

/-- The links of an item whose sizes are `sizes` and whose further entries are `last`. -/
theorem links_iff {p : Picture} {storage : Storage} {item : Item} {original : String}
    {sizes : List ℤ} {last : List Source} {media : ℤ → String} (hp : l.picture p.id = some p)
    (hstorage : l.storages p.storageId = some storage) (hid : item.id = p.id)
    (horiginal : item.original = storage.cdnUri ++ "/" ++ original)
    (hset : item.imageSet = (sizes.map fun res =>
      ⟨scaled (storage.cdnUri ++ "/" ++ p.path) res p.formatOriginal, media res⟩) ++ last) :
    (∀ url ∈ item.links, l.Names item.id url) ↔
      (l.objects storage.bucket original).isSome ∧
        (∀ res ∈ sizes, (l.objects storage.bucket (scaled p.path res p.formatOriginal)).isSome) ∧
          ∀ s ∈ last, l.Names p.id s.srcSet := by
  rw [Item.links, List.forall_mem_cons, hid, horiginal, names_iff hp hstorage, hset, List.forall_mem_map,
    List.forall_mem_append, List.forall_mem_map]
  simp only [scaled_append, names_iff hp hstorage]

theorem found_iff {item : Item} {P : Item → Prop} :
    (∃ found, (.ok (some item) : Except Failure (Option Item)) = .ok found ∧ ∀ i ∈ found, P i) ↔
      P item := by
  constructor
  · rintro ⟨_, h, hall⟩
    cases h
    exact hall item rfl
  · exact fun h => ⟨_, rfl, fun i hi => by rw [← Option.mem_some.mp hi]; exact h⟩

/-- The reader takes a size that is the height to be stored, where the worker skips it, and takes the
grant to be one of the sizes. -/
theorem itemOf_iff {m thumbnail_height : ℤ} {album : Album} {p : Picture} {storage : Storage}
    {sizes : List ℤ} (hp : l.picture p.id = some p) (h : Stored l p m storage sizes)
    (hsizes : album.sizeList = some sizes) :
    (∃ found, itemOf l m album thumbnail_height p = .ok found ∧
      ∀ item ∈ found, ∀ url ∈ item.links, l.Names item.id url) ↔ Agree m sizes p := by
  have hpos := h.positive
  have hnames : ∀ key, l.Names p.id (storage.cdnUri ++ "/" ++ key) ↔
      (l.objects storage.bucket key).isSome := fun key => names_iff hp h.volume
  unfold itemOf Agree
  rw [h.volume, hsizes]
  simp only
  by_cases hvideo : p.formatOriginal ∈ mimeVideoTypes
  · rw [if_pos hvideo]
    exact ⟨fun _ => .inl hvideo, fun _ => ⟨none, rfl, fun _ hi => nomatch hi⟩⟩
  rw [if_neg hvideo]
  by_cases hfits : (p.tall : ℤ) ≤ m
  · have hnonzero : p.tall ≠ 0 ∧ (p.tall : ℤ) ≤ m := ⟨by omega, hfits⟩
    have horiginal := h.original hfits
    rw [if_pos hnonzero, found_iff, links_iff hp h.volume rfl
      ((if_pos (.inr hfits)).trans (whole_append ..)) rfl, h.sizes_iff]
    simp [hvideo, hfits, horiginal, whole_append, hnames]
  · have hnot : ¬ (p.tall ≠ 0 ∧ (p.tall : ℤ) ≤ m) := fun hand => hfits hand.2
    have hneither : ¬ (p.tall = 0 ∨ (p.tall : ℤ) ≤ m) := by omega
    rw [if_neg hnot]
    cases hlast : (sizes.filter fun s => p.tall = 0 ∨ s ≤ (p.tall : ℤ)).getLast? with
    | none =>
        have hnone : ∀ res ∈ sizes, ¬ res ≤ (p.tall : ℤ) := by
          intro res hres hle
          have hmem : res ∈ sizes.filter fun s => p.tall = 0 ∨ s ≤ (p.tall : ℤ) :=
            List.mem_filter.mpr ⟨hres, decide_eq_true (.inr hle)⟩
          rw [List.getLast?_eq_none_iff.mp hlast] at hmem
          cases hmem
        constructor
        · rintro ⟨_, herr, _⟩
          cases herr
        · rintro (hv | ⟨_, hle | hm⟩)
          · exact absurd hv hvideo
          · exact absurd hle hfits
          · exact absurd (by omega) (hnone m hm)
    | some res =>
        have hres := List.mem_of_getLast? hlast
        simp only
        rw [found_iff, links_iff hp h.volume rfl ((if_neg hneither).trans (scaled_append ..)) rfl,
          h.sizes_iff, h.scaled_iff]
        constructor
        · rintro ⟨⟨hm, _⟩, htall, _⟩
          exact .inr ⟨htall, .inr hm⟩
        · rintro (hv | ⟨htall, hle | hm⟩)
          · exact absurd hv hvideo
          · exact absurd hle hfits
          · refine ⟨⟨hm, by omega⟩, htall, ?_⟩
            simpa [scaled_append, hnames] using h.sizes_iff.mpr htall res hres

theorem linked_iff {viewer albumId : String} {thumbnail_height : ℤ} {album : Album}
    (halbum : l.albums albumId = some album)
    (hactive : ∀ p ∈ l.picturesOf albumId, p ∈ l.pictures ∧ p.status = "active") :
    Linked set l viewer albumId thumbnail_height ↔
      ∀ p ∈ l.picturesOf albumId, ∃ found,
        itemOf l (set.photoResMax viewer) album thumbnail_height p = .ok found ∧
          ∀ item ∈ found, ∀ url ∈ item.links, l.Names item.id url := by
  unfold Linked fetchAlbumMeta
  rw [halbum]
  simp only
  split_ifs with hsome
  · exact itemsOf_iff _ _
  · refine ⟨fun _ p hp => absurd ⟨p, hactive p hp⟩ hsome, fun _ => ⟨[], rfl, fun _ hi => nomatch hi⟩⟩

/-! ### Runs -/

/-- The files of a run have names of their own: no path is followed by a dot in that of another file. -/
structure Issued (infos : List Meta) : Prop where
  fid : ∀ a ∈ infos, ∀ b ∈ infos, a.fid = b.fid → a = b
  path : ∀ a ∈ infos, ∀ b ∈ infos, (a.path ++ ".").toList <+: (b.path ++ ".").toList → a = b

theorem Issued.owner {infos : List Meta} (h : Issued infos) {key : String} (hinfo : info ∈ infos)
    (hother : other ∈ infos) (howns : Owns info key) (howns' : Owns other key) : info = other := by
  rcases List.prefix_or_prefix_of_prefix howns howns' with hpre | hpre
  · exact h.path info hinfo other hother hpre
  · exact (h.path other hother info hinfo hpre).symm

/-- The file that an event is about. -/
def Event.subject : Event → Meta
  | .upload info _ => info
  | .photo info _ => info

/-- The files whose processing has returned. -/
def recordProcessed (set : Setting) (done : List String) (l : Library) : Event → List String
  | .upload _ _ => done
  | .photo info refused =>
      match (photo set refused l info).2 with
      | .ok () => info.fid :: done
      | .error _ => done

/-- The machine that remembers them. -/
def watched (set : Setting) : Machine (Library × List String) Event (Except Failure Unit) :=
  (machine set).withHistory (recordProcessed set)

/-- The invariant: the library holds pictures of the files of the run only, no scaled image is there before
its file is worked on, and all is stored of a file whose processing has returned. -/
structure Filed (set : Setting) (l₀ : Library) (infos : List Meta) (q : Library × List String) :
    Prop where
  storages : q.1.storages = l₀.storages
  sizes : ∀ id, (q.1.albums id).map Album.sizes = (l₀.albums id).map Album.sizes
  pictures : ∀ p ∈ q.1.pictures, ∃ info ∈ infos, ∃ img, p = info.record img
  contents : ∀ c ∈ q.1.contents, ∃ info ∈ infos, c.albumId = info.pid ∧ c.pictureId = info.fid
  unworked : ∀ info ∈ infos, q.1.picture info.fid = none → ∀ bucket res,
    q.1.objects bucket (scaled info.path res info.ctype) = none
  worked : ∀ info ∈ infos, info.fid ∈ q.2 → ∃ img storage sizes,
    q.1.picture info.fid = some (info.record img) ∧
      (l₀.albums info.pid).bind Album.sizeList = some sizes ∧
        Stored q.1 (info.record img) (set.photoResMax info.uid) storage sizes

theorem upload_spec (l : Library) (info : Meta) (content : String) :
    l.SameRows (upload l info content) ∧
      (∀ bucket key, key ≠ whole info.path info.ctype →
        (upload l info content).objects bucket key = l.objects bucket key) ∧
      ∀ bucket key, (l.objects bucket key).isSome →
        ((upload l info content).objects bucket key).isSome := by
  unfold upload
  cases l.storages info.sid with
  | none => exact ⟨.rfl', fun _ _ _ => rfl, fun _ _ h => h⟩
  | some storage =>
      refine ⟨Library.setObject_rows .., fun bucket key hkey => Library.setObject_other hkey ..,
        fun bucket key hsome => ?_⟩
      by_cases hb : bucket = storage.bucket
      · by_cases hkey : key = whole info.path info.ctype
        · rw [hb, hkey]
          simp only [Library.setObject_self, Option.isSome_some]
        · simp only [Library.setObject_other hkey]
          exact hsome
      · simpa [Library.setObject, hb] using hsome

/-- What is stored of a picture stays so while its own objects do. -/
theorem Stored.of_same {p : Picture} {m : ℤ} {storage : Storage} {sizes : List ℤ}
    (h : Stored l p m storage sizes) (hstorages : l'.storages = l.storages)
    (hscaled : ∀ res, l'.objects storage.bucket (scaled p.path res p.formatOriginal) =
      l.objects storage.bucket (scaled p.path res p.formatOriginal))
    (hwhole : (l.objects storage.bucket (whole p.path p.formatOriginal)).isSome →
      (l'.objects storage.bucket (whole p.path p.formatOriginal)).isSome) :
    Stored l' p m storage sizes where
  positive := h.positive
  volume := by rw [hstorages, h.volume]
  scaled_iff res := by rw [hscaled, h.scaled_iff]
  original hm := hwhole (h.original hm)

theorem filed_upload {l₀ : Library} {infos : List Meta} {done : List String} {content : String}
    (hissued : Issued infos) (hinfo : info ∈ infos) (h : Filed set l₀ infos (l, done)) :
    Filed set l₀ infos (upload l info content, done) := by
  obtain ⟨hrows, hother, hkept⟩ := upload_spec l info content
  have hpicture : ∀ id, (upload l info content).picture id = l.picture id := by
    intro id
    rw [Library.picture, hrows.pictures, Library.picture]
  have hscaled : ∀ a ∈ infos, ∀ bucket res, (upload l info content).objects bucket
      (scaled a.path res a.ctype) = l.objects bucket (scaled a.path res a.ctype) := by
    intro a ha bucket res
    refine hother bucket _ fun heq => ?_
    have hsame : a = info := hissued.owner ha hinfo (owns_scaled a res a.ctype)
      (by rw [heq]; exact owns_whole info info.ctype)
    rw [hsame] at heq
    exact scaled_ne_whole _ _ _ heq
  refine ⟨hrows.storages.trans h.storages, fun id => ?_, fun p hp => ?_, fun c hc => ?_,
    fun a ha hnone bucket res => ?_, fun a ha hdone => ?_⟩
  · rw [hrows.albums]
    exact h.sizes id
  · exact h.pictures p (hrows.pictures ▸ hp)
  · exact h.contents c (hrows.contents ▸ hc)
  · rw [hpicture] at hnone
    rw [hscaled a ha]
    exact h.unworked a ha hnone bucket res
  · obtain ⟨img, storage, sizes, hpic, hsizes, hstored⟩ := h.worked a ha hdone
    refine ⟨img, storage, sizes, (hpicture _).trans hpic, hsizes, ?_⟩
    exact hstored.of_same hrows.storages (fun res => hscaled a ha _ res) (hkept _ _)

theorem picture_id {id : String} {p : Picture} (h : l.picture id = some p) : p.id = id := by
  unfold Library.picture at h
  have hid := List.find?_some h
  simpa using hid

theorem picture_append {p : Picture} (id : String) (h : l'.pictures = l.pictures ++ [p]) :
    l'.picture id = (l.picture id).or (if p.id = id then some p else none) := by
  unfold Library.picture
  rw [h, List.find?_append]
  by_cases hid : p.id = id
  · simp [hid]
  · simp [hid]

theorem Worked.new (h : Worked l info img l') : l'.picture info.fid = some (info.record img) := by
  have hid : (info.record img).id = info.fid := rfl
  rw [picture_append info.fid h.pictures, h.fresh, if_pos hid, Option.none_or]

/-- A call of the worker leaves the other files of the run alone. -/
theorem Worked.apart {infos : List Meta} (h : Worked l info img l') (hissued : Issued infos)
    (hinfo : info ∈ infos) (hother : other ∈ infos) (hne : other ≠ info) :
    l'.picture other.fid = l.picture other.fid ∧
      ∀ bucket key, Owns other key → l'.objects bucket key = l.objects bucket key := by
  constructor
  · have hid : ¬ (info.record img).id = other.fid :=
      fun heq => hne (hissued.fid other hother info hinfo heq.symm)
    rw [picture_append other.fid h.pictures, if_neg hid, Option.or_none]
  · intro bucket key howns
    exact h.objects bucket key fun howns' => hne (hissued.owner hother hinfo howns howns')

theorem Filed.work {l₀ : Library} {infos : List Meta} {done done' : List String}
    (h : Filed set l₀ infos (l, done)) (hissued : Issued infos) (hinfo : info ∈ infos)
    (hworked : Worked l info img l')
    (hdone : ∀ fid ∈ done', fid ∈ done ∨ fid = info.fid ∧ ∃ storage album sizes,
      l.storages info.sid = some storage ∧ l.albums info.pid = some album ∧
        album.sizeList = some sizes ∧
        (l.objects storage.bucket (whole info.path info.ctype)).isSome ∧
        Finished set l info img l' storage sizes) :
    Filed set l₀ infos (l', done') := by
  refine ⟨hworked.storages.trans h.storages, fun id => (hworked.sizes id).trans (h.sizes id),
    fun p hp => ?_, fun c hc => ?_, fun a ha hnone bucket res => ?_, fun a ha hfid => ?_⟩
  · rw [hworked.pictures] at hp
    rcases List.mem_append.mp hp with hold | hnew
    · exact h.pictures p hold
    · exact ⟨info, hinfo, img, List.mem_singleton.mp hnew⟩
  · rcases hworked.contents c hc with hold | hnew
    · exact h.contents c hold
    · exact ⟨info, hinfo, hnew⟩
  · have hne : a ≠ info := by
      rintro rfl
      rw [hworked.new] at hnone
      cases hnone
    obtain ⟨hpicture, hobjects⟩ := hworked.apart hissued hinfo ha hne
    rw [hpicture] at hnone
    rw [hobjects bucket _ (owns_scaled a res a.ctype)]
    exact h.unworked a ha hnone bucket res
  · rcases hdone a.fid hfid with hold | ⟨heq, storage, album, sizes, hstorage, halbum, hsizes, hraw, hfin⟩
    · have hne : a ≠ info := by
        rintro rfl
        obtain ⟨_, _, _, hpicture, _⟩ := h.worked a ha hold
        rw [hworked.fresh] at hpicture
        cases hpicture
      obtain ⟨hpicture, hobjects⟩ := hworked.apart hissued hinfo ha hne
      obtain ⟨img', storage, sizes, hpic, hsizes, hstored⟩ := h.worked a ha hold
      refine ⟨img', storage, sizes, hpicture.trans hpic, hsizes, ?_⟩
      exact hstored.of_same hworked.storages (fun res => hobjects _ _ (owns_scaled a res a.ctype))
        (fun hsome => (hobjects _ _ (owns_whole a a.ctype)).symm ▸ hsome)
    · obtain rfl : a = info := hissued.fid a ha info hinfo heq
      have hlist : (l₀.albums a.pid).bind Album.sizeList = some sizes := by
        have hmap := h.sizes a.pid
        rw [halbum] at hmap
        obtain ⟨album₀, halbum₀, htext⟩ := Option.map_eq_some_iff.mp hmap.symm
        rw [halbum₀, Option.bind_some, Album.sizeList, htext]
        exact hsizes
      refine ⟨img, storage, sizes, hworked.new, hlist, img.positive, ?_, fun res => ?_, fun hfits => ?_⟩
      · rw [hworked.storages]
        exact hstorage
      · refine (hfin.scaled_iff res).trans (or_iff_left ?_)
        rw [h.unworked a ha hworked.fresh]
        decide
      · rw [← hfin.original hfits] at hraw
        exact hraw

theorem filed_photo {l₀ : Library} {infos : List Meta} {done : List String}
    (hissued : Issued infos) (hinfo : info ∈ infos) (h : Filed set l₀ infos (l, done)) :
    Filed set l₀ infos ((photo set refused l info).1,
      recordProcessed set done l (.photo info refused)) := by
  rcases photo_cases set refused l info with ⟨hsame, e, herror⟩ | ⟨img, hworked, hok⟩
  · simp only [recordProcessed, hsame, herror]
    exact h
  · refine h.work hissued hinfo hworked fun fid hfid => ?_
    cases hresult : (photo set refused l info).2 with
    | error e =>
        simp only [recordProcessed, hresult] at hfid
        exact .inl hfid
    | ok u =>
        simp only [recordProcessed, hresult] at hfid
        rcases List.mem_cons.mp hfid with hnew | hold
        · exact .inr ⟨hnew, hok hresult⟩
        · exact .inl hold

theorem filed_next {l₀ : Library} {infos : List Meta} (hissued : Issued infos)
    (q : Library × List String) (e : Event) (h : Filed set l₀ infos q) (he : e.subject ∈ infos) :
    Filed set l₀ infos ((watched set).next q e) := by
  obtain ⟨l, done⟩ := q
  cases e with
  | upload info content => exact filed_upload hissued he h
  | photo info refused => exact filed_photo hissued he h

/-- A library before its first picture. -/
structure Fresh (l : Library) : Prop where
  pictures : l.pictures = []
  contents : l.contents = []
  objects : ∀ bucket key, l.objects bucket key = none

theorem Fresh.filed {infos : List Meta} (h : Fresh l) : Filed set l infos (l, []) where
  storages := rfl
  sizes _ := rfl
  pictures _ hp := absurd (h.pictures ▸ hp) List.not_mem_nil
  contents _ hc := absurd (h.contents ▸ hc) List.not_mem_nil
  unworked _ _ _ bucket _ := h.objects bucket _
  worked _ _ hdone := absurd hdone List.not_mem_nil

/-- The files whose processing has returned in a run. -/
def processed (set : Setting) (l : Library) (es : List Event) : List String :=
  ((watched set).run (l, []) es).2

theorem filed_run {l₀ : Library} {es : List Event} (hfresh : Fresh l₀)
    (hissued : Issued (es.map Event.subject)) :
    Filed set l₀ (es.map Event.subject) ((machine set).run l₀ es, processed set l₀ es) := by
  have halong : (watched set).Along (fun _ e => e.subject ∈ es.map Event.subject) (l₀, []) es := by
    rw [Machine.along_iff]
    rintro es₁ e es₂ hes
    exact List.mem_map_of_mem (hes ▸ List.mem_append_right _ List.mem_cons_self)
  have hfiled := Machine.invariant (filed_next hissued) halong hfresh.filed
  have hrun : ((watched set).run (l₀, []) es).1 = (machine set).run l₀ es :=
    Machine.run_withHistory _ _ _ _
  rw [← hrun]
  exact hfiled

theorem Filed.picture {l₀ : Library} {infos : List Meta} {done : List String}
    (h : Filed set l₀ infos (l, done)) {albumId : String} {p : Picture} {sizes : List ℤ}
    (hsizes : (l₀.albums albumId).bind Album.sizeList = some sizes) (hp : p ∈ l.picturesOf albumId)
    (hdone : p.id ∈ done) :
    l.picture p.id = some p ∧ p.status = "active" ∧
      ∃ storage uid, Stored l p (set.photoResMax uid) storage sizes := by
  obtain ⟨c, hc, hpicture⟩ := List.mem_filterMap.mp hp
  obtain ⟨hcontent, halbum⟩ := List.mem_filter.mp hc
  obtain ⟨info, hinfo, hpid, hfid⟩ := h.contents c hcontent
  have hid : p.id = c.pictureId := picture_id hpicture
  rw [hid, hfid] at hdone
  obtain ⟨img, storage, sizes', hrecord, hsizes', hstored⟩ := h.worked info hinfo hdone
  rw [← hfid, hpicture] at hrecord
  obtain rfl := Option.some.inj hrecord
  rw [← hpid, of_decide_eq_true halbum, hsizes] at hsizes'
  obtain rfl := Option.some.inj hsizes'
  exact ⟨hid ▸ hpicture, rfl, storage, info.uid, hstored⟩

/-- After any run of uploads and calls of the worker from a fresh library, and with one grant for the
uploader and the viewer: an album whose pictures have all been processed is read, and all that it links to
is stored, if and only if the height of no image is one of the sizes of the album, and the grant is one of
the sizes where an image is taller than it. -/
theorem links_resolve_iff {l₀ : Library} {es : List Event} {albumId viewer : String} {album : Album}
    {sizes : List ℤ} {m thumbnail_height : ℤ} (hfresh : Fresh l₀)
    (hissued : Issued (es.map Event.subject)) (halbum : l₀.albums albumId = some album)
    (hsizes : album.sizeList = some sizes) (hmax : ∀ uid, set.photoResMax uid = m)
    (hprocessed : ∀ p ∈ ((machine set).run l₀ es).picturesOf albumId, p.id ∈ processed set l₀ es) :
    Linked set ((machine set).run l₀ es) viewer albumId thumbnail_height ↔
      ∀ p ∈ ((machine set).run l₀ es).picturesOf albumId, Agree m sizes p := by
  have hfiled : Filed set l₀ _ ((machine set).run l₀ es, processed set l₀ es) :=
    filed_run hfresh hissued
  revert hprocessed hfiled
  generalize (machine set).run l₀ es = l
  intro hprocessed hfiled
  have hlist : (l₀.albums albumId).bind Album.sizeList = some sizes := by
    rw [halbum]
    exact hsizes
  have hpicture := fun p hp => hfiled.picture hlist hp (hprocessed p hp)
  obtain ⟨album', halbum', htext⟩ := Option.map_eq_some_iff.mp
    ((hfiled.sizes albumId).trans (congrArg (Option.map Album.sizes) halbum))
  have hsizes' : album'.sizeList = some sizes := by
    rw [Album.sizeList, htext]
    exact hsizes
  rw [linked_iff halbum' fun p hp =>
    ⟨List.mem_of_find?_eq_some (hpicture p hp).1, (hpicture p hp).2.1⟩]
  refine forall₂_congr fun p hp => ?_
  obtain ⟨hp, -, storage, uid, hstored⟩ := hpicture p hp
  rw [hmax] at hstored ⊢
  exact itemOf_iff hp hstored hsizes'

/-- A content is the height of its image, and one grant is for all. -/
def pillow : Setting where
  imaging :=
    { opened := fun raw =>
        match Text.digits raw.toList with
        | some (n + 1) => some ⟨raw, 640, n + 1, n.succ_pos⟩
        | _ => none
      resized := fun _ width height _ => if 0 < width ∧ 0 < height then some (toString height) else none }
  photoResMax := fun _ => 1080

/-- One volume, and one album with the given sizes. -/
def shelf (sizes : String) : Library where
  storages sid := if sid = "s-01" then some ⟨"https://cdn.example.com", "photos", "aws", "active"⟩ else none
  albums pid := if pid = "a-01" then some ⟨sizes, none⟩ else none
  pictures := []
  contents := []
  objects _ _ := none

def file (fid : String) : Meta := ⟨fid, "photo", "u-0001/" ++ fid, "jpeg", "s-01", "a-01", "u-0001", none⟩

/-- A photo is uploaded and processed. -/
def sent (fid height : String) : List Event := [.upload (file fid) height, .photo (file fid) []]

/-- A photo within the grant, and one above it. -/
theorem shelf_linked :
    Linked pillow ((machine pillow).run (shelf "120,1080") (sent "f-1" "480" ++ sent "f-2" "2160"))
      "u-0001" "a-01" 75 := by
  have hsizes : (⟨"120,1080", none⟩ : Album).sizeList = some [120, 1080] := by decide +kernel
  refine (links_resolve_iff ⟨rfl, rfl, fun _ _ => rfl⟩ ⟨by decide, by decide⟩ rfl hsizes (fun _ => rfl)
    (by decide +kernel)).mpr ?_
  unfold Agree
  decide +kernel

/-- The reader links to the size that is the height of the photo, and the worker has not stored it; and no
size is left of a photo that is smaller than all of them and above the grant. -/
theorem shelf_dangling :
    ((machine pillow).outputs (shelf "120,720") (sent "f-1" "720") = [.ok (), .ok ()] ∧
      ¬ Linked pillow ((machine pillow).run (shelf "120,720") (sent "f-1" "720")) "u-0001" "a-01" 75) ∧
    (machine pillow).outputs (shelf "2160") (sent "f-1" "1200") = [.ok (), .ok ()] ∧
      ¬ Linked pillow ((machine pillow).run (shelf "2160") (sent "f-1" "1200")) "u-0001" "a-01" 75 := by
  refine ⟨⟨by decide +kernel, ?_⟩, by decide +kernel, ?_⟩
  · rintro ⟨items, hitems, hall⟩
    have hdata : ((fetchAlbumMeta pillow ((machine pillow).run (shelf "120,720") (sent "f-1" "720"))
        "u-0001" "a-01" 75).toOption.map fun items => items.map fun item =>
          (item.id, item.links.contains ("https://cdn.example.com" ++ "/" ++ "u-0001/f-1.720.jpeg"))) =
            some [("f-1", true)] := by decide +kernel
    rw [hitems] at hdata
    obtain ⟨item, rfl, hitem⟩ := List.map_eq_singleton_iff.mp (Option.some.inj hdata)
    obtain ⟨hid, hlink⟩ := Prod.mk.inj hitem
    have hname := hall item List.mem_cons_self _ (List.contains_iff_mem.mp hlink)
    have hpicture : ((machine pillow).run (shelf "120,720") (sent "f-1" "720")).picture "f-1" =
        some ((file "f-1").record ⟨"720", 640, 720, by decide⟩) := by decide +kernel
    have hvolume : ((machine pillow).run (shelf "120,720") (sent "f-1" "720")).storages "s-01" =
        some ⟨"https://cdn.example.com", "photos", "aws", "active"⟩ := by decide +kernel
    rw [hid, names_iff hpicture hvolume] at hname
    exact absurd hname (by decide +kernel)
  · rintro ⟨items, hitems, -⟩
    have hraised : (fetchAlbumMeta pillow ((machine pillow).run (shelf "2160") (sent "f-1" "1200"))
        "u-0001" "a-01" 75).toOption = none := by decide +kernel
    rw [hitems] at hraised
    cases hraised

end Media

end Apicrud
