import PietLang.Source.Folder

/-!
# Proofs/Loading — which errors of loading are no failures to load

A source is read from a file or fetched from an address, and what is found there is decoded.  The
client and the decoder raise errors of their own, of which only the documented classes are known
(`Client.IsDocumented`).  A guarded step turns the errors that it catches into failures to load and
lets the others pass (`guarded_of_isA`, `guarded_of_not_isA`), so for every step there is one
question: whether all that it can raise is caught.

For two errors the answer is no (`Reach.Escapes`).  A directory exists as a file does, but it cannot
be opened, and opening is not guarded.  A text that is no address is refused when it is parsed,
before anything is asked, and the error is none of those of a request.  In every other case there is
a picture or a failure to load (`read_cases`, `load_of_read`).
-/

namespace PietLang

/-- Every channel of every pixel is a byte. -/
def Picture.IsRgb (pic : Picture) : Prop :=
  ∀ q px, pic.get? q = some px → (0 ≤ px.red ∧ px.red < 256) ∧ (0 ≤ px.green ∧ px.green < 256) ∧
    0 ≤ px.blue ∧ px.blue < 256

theorem Picture.isRgb_ofPixels (g : Grid Pixel) : (ofPixels g).IsRgb := by
  have hbyte (v : UInt8) : (0 : Int) ≤ v.toNat ∧ (v.toNat : Int) < 256 :=
    ⟨Int.natCast_nonneg _, Int.ofNat_lt.mpr v.toNat_lt⟩
  intro q px h
  rw [ofPixels, Grid.get?_map] at h
  obtain ⟨stored, -, rfl⟩ := Option.map_eq_some_iff.mp h
  cases stored with
  | rgb r g b | rgba r g b _ => exact ⟨hbyte r, hbyte g, hbyte b⟩
  | gray v | grayAlpha v _ => exact ⟨hbyte v, hbyte v, hbyte v⟩

namespace Source

variable {α β γ : Type} {r : Reach α β} {source what : String} {e : Raised} {c : ErrorClass}
  {caught : List ErrorClass}

/-! ## Guarded steps -/

/-- An error that is caught becomes a failure to load. -/
theorem guarded_of_isA (hmem : c ∈ caught) (hisA : e.kind.IsA c) :
    guarded caught what (.error e : Except Raised γ) = .error (loadError (what ++ e.message)) :=
  if_pos ⟨c, hmem, hisA⟩

/-- Every other error passes. -/
theorem guarded_of_not_isA (h : ∀ c ∈ caught, ¬ e.kind.IsA c) :
    guarded caught what (.error e : Except Raised γ) = .error e :=
  if_neg fun ⟨c, hmem, hisA⟩ => h c hmem hisA

/-! ## What is documented, and what is found -/

/-- What is documented of a client for the web. -/
structure Client.IsDocumented (c : Client α β) : Prop where
  /-- What is no address is refused as such. -/
  parse_raises : ∀ s e, c.parse s = .error e → e.kind = .invalidUrl
  /-- Without an answer a request fails. -/
  send_raises : ∀ a e, c.send a = .error e → e.kind.IsA .http
  /-- A status from 200 to 299 is a success… -/
  check_success : ∀ a, 200 ≤ a.status → a.status < 300 → c.check a = .ok ()
  /-- …and with any other one a request has failed. -/
  check_raises : ∀ a, ¬ (200 ≤ a.status ∧ a.status < 300) →
    ∃ e, c.check a = .error e ∧ e.kind.IsA .http

/-- What is found under a source: the content of a file, or that of an answer which is a success. -/
inductive Reach.Offers (r : Reach α β) (source : String) : β → Prop
  | file {b : β} (hpath : isUrl source = false)
    (hfile : r.file? source = some (.content b)) : Offers r source b
  | answer {a : α} {answer : Answer α β} (hurl : isUrl source = true)
    (haddress : r.client.parse source = .ok a) (hanswer : r.client.send a = .ok answer)
    (hlow : 200 ≤ answer.status) (hhigh : answer.status < 300) : Offers r source answer.content

/-- The errors that pass all guards: the source is a directory, or starts like an address and is
none. -/
inductive Reach.Escapes (r : Reach α β) (source : String) : Raised → Prop
  | directory (hpath : isUrl source = false) (hfile : r.file? source = some .directory) :
    Escapes r source (systemError .isADirectory 21 "Is a directory" source)
  | address {e : Raised} (hurl : isUrl source = true)
    (haddress : r.client.parse source = .error e) : Escapes r source e

/-! ## Reading -/

/-- What is no address cannot be fetched, and the error is not caught. -/
theorem fetch_of_no_address (hclient : r.client.IsDocumented)
    (haddress : r.client.parse source = .error e) : fetch r source = .error e := by
  have hkind := hclient.parse_raises source e haddress
  have hstep : r.client.get source = .error e := by
    rw [Client.get, haddress]
    rfl
  rw [fetch, hstep]
  exact guarded_of_not_isA (by rw [hkind]; decide)

/-- An address is fetched, or there is a failure to load. -/
theorem fetch_of_address (hclient : r.client.IsDocumented) {a : α}
    (haddress : r.client.parse source = .ok a) :
    (∃ answer, fetch r source = .ok answer.content ∧ r.client.send a = .ok answer ∧
        200 ≤ answer.status ∧ answer.status < 300) ∨
      ∃ message, fetch r source = .error (loadError message) := by
  have hstep : r.client.get source = r.client.send a := by
    rw [Client.get, haddress]
    rfl
  rw [fetch, hstep]
  rcases hanswer : r.client.send a with e | answer
  · exact Or.inr ⟨_, guarded_of_isA List.mem_cons_self (hclient.send_raises a e hanswer)⟩
  by_cases hstatus : 200 ≤ answer.status ∧ answer.status < 300
  · refine Or.inl ⟨answer, ?_, rfl, hstatus⟩
    simp only [bind, Except.bind, hclient.check_success answer hstatus.1 hstatus.2]
    rfl
  · obtain ⟨e, hcheck, hkind⟩ := hclient.check_raises answer hstatus
    refine Or.inr ⟨"Failed to fetch image: " ++ e.message, ?_⟩
    simp only [bind, Except.bind, hcheck]
    exact guarded_of_isA List.mem_cons_self hkind

/-- **What is read is what is offered**, or there is a failure to load, or an error escapes. -/
theorem read_cases (hclient : r.client.IsDocumented) (source : String) :
    (∃ b, read r source = .ok b ∧ r.Offers source b) ∨
      (∃ message, read r source = .error (loadError message)) ∨ ∃ e, r.Escapes source e := by
  rw [read]
  by_cases hurl : isUrl source = true
  · rw [if_pos hurl]
    rcases haddress : r.client.parse source with e | a
    · exact Or.inr (Or.inr ⟨e, .address hurl haddress⟩)
    obtain ⟨answer, hfetch, hanswer, hlow, hhigh⟩ | hfails := fetch_of_address hclient haddress
    · exact Or.inl ⟨answer.content, hfetch, .answer hurl haddress hanswer hlow hhigh⟩
    · exact Or.inr (Or.inl hfails)
  · have hpath : isUrl source = false := by simpa using hurl
    rw [if_neg hurl, openFile]
    rcases hfile : r.file? source with _ | ⟨b | _⟩
    · exact Or.inr (Or.inl ⟨_, rfl⟩)
    · exact Or.inl ⟨b, rfl, .file hpath hfile⟩
    · exact Or.inr (Or.inr ⟨_, .directory hpath hfile⟩)

/-- An error that escapes is raised by reading. -/
theorem read_of_escapes (hclient : r.client.IsDocumented) (h : r.Escapes source e) :
    read r source = .error e := by
  rcases h with ⟨hpath, hfile⟩ | ⟨hurl, haddress⟩
  · rw [read, hpath, openFile, hfile]
    rfl
  · rw [read, if_pos hurl, fetch_of_no_address hclient haddress]

/-- **No error that escapes is one of this program.** -/
theorem Reach.Escapes.not_isA_piet (hclient : r.client.IsDocumented) (h : r.Escapes source e) :
    ¬ e.kind.IsA .piet := by
  rcases h with ⟨hpath, hfile⟩ | ⟨hurl, haddress⟩
  · show ¬ ErrorClass.isADirectory.IsA .piet
    decide
  · rw [hclient.parse_raises source e haddress]
    decide

/-! ## Loading -/

/-- What is read is decoded, or there is a failure to load. -/
theorem load_of_read (hdecoder : ∀ b e, r.decode b = .error e → e.kind.IsA .os) {b : β}
    (hread : read r source = .ok b) :
    (∃ g, r.decode b = .ok g ∧ load r source = .ok (Picture.ofPixels g)) ∨
      ∃ message, load r source = .error (loadError message) := by
  have hload : load r source = guarded [.unidentifiedImage, .os] "Failed to open image: " do
      let pixels ← r.decode b
      return Picture.ofPixels pixels := by
    rw [load, hread]
    rfl
  rw [hload]
  rcases hdecode : r.decode b with e | g
  · exact Or.inr ⟨_, guarded_of_isA (by simp) (hdecoder b e hdecode)⟩
  · exact Or.inl ⟨g, rfl, rfl⟩

theorem load_of_error (h : read r source = .error e) : load r source = .error e := by
  rw [load, h]
  rfl

/-- **Loading gives the picture that the source offers or raises a failure to load**, unless the
source is a directory or starts like an address and is none.  In these two cases the error is none
of this program, and so the command does not report it.  The client is taken to refuse with its
documented errors, and the decoder with errors of the system. -/
theorem loads_or_raises_unless_escapes (r : Reach α β) (hclient : r.client.IsDocumented)
    (hdecoder : ∀ b e, r.decode b = .error e → e.kind.IsA .os) (source : String) :
    ((∃ b g, r.Offers source b ∧ r.decode b = .ok g ∧
        load r source = .ok (Picture.ofPixels g) ∧ (Picture.ofPixels g).IsRgb) ∨
      (∃ message, load r source = .error ⟨.imageLoad, message⟩) ∨ ∃ e, r.Escapes source e) ∧
    ∀ e, r.Escapes source e → load r source = .error e ∧ ¬ e.kind.IsA .piet := by
  constructor
  · obtain ⟨b, hread, hoffers⟩ | ⟨message, hread⟩ | hescapes := read_cases hclient source
    · obtain ⟨g, hdecode, hload⟩ | hfails := load_of_read hdecoder hread
      · exact Or.inl ⟨b, g, hoffers, hdecode, hload, Picture.isRgb_ofPixels g⟩
      · exact Or.inr (Or.inl hfails)
    · exact Or.inr (Or.inl ⟨message, load_of_error hread⟩)
    · exact Or.inr (Or.inr hescapes)
  · intro e hescapes
    exact ⟨load_of_error (read_of_escapes hclient hescapes), hescapes.not_isA_piet hclient⟩

/-- A pixmap of one pixel. -/
def dot : List UInt8 :=
  [0x50, 0x36, 0x0A, 0x31, 0x20, 0x31, 0x0A, 0x32, 0x35, 0x35, 0x0A, 0xFF, 0xC0, 0xC0]

/-- A directory beside a picture, and an address that has moved away for good; the others refuse
connections, but for a name whose port is no number. -/
def cabinet : Reach String (List UInt8) where
  file? := (Folder.ofPaths [("d", .directory), ("dot.ppm", .content dot)]).find?
  client :=
    { parse := fun s =>
        if s = "http://a:b/" then .error ⟨.invalidUrl, "Invalid port: 'b'"⟩ else .ok s
      send := fun a =>
        if a = "http://example.org/gone" then .ok ⟨a, 410, []⟩
        else .error ⟨.transport, "connection refused"⟩
      check := fun answer =>
        if 200 ≤ answer.status ∧ answer.status < 300 then .ok ()
        else .error ⟨.status, s!"Client error '{answer.status} Gone' for url '{answer.address}'"⟩ }
  decode bs :=
    if bs = dot then .ok ⟨⟨1, 1⟩, #[.rgb 0xFF 0xC0 0xC0], rfl⟩
    else .error ⟨.unidentifiedImage, "cannot identify image file <_io.BytesIO object>"⟩

theorem isDocumented_cabinet : cabinet.client.IsDocumented where
  parse_raises s e h := by
    simp only [cabinet] at h
    split at h
    · obtain rfl := Except.error.inj h
      rfl
    · cases h
  send_raises a e h := by
    simp only [cabinet] at h
    split at h
    · cases h
    · obtain rfl := Except.error.inj h
      decide
  check_success _ hlow hhigh := if_pos ⟨hlow, hhigh⟩
  check_raises _ hstatus := by
    refine ⟨_, if_neg hstatus, ?_⟩
    show ErrorClass.status.IsA .http
    decide

theorem decode_raises_cabinet (bs : List UInt8) (e : Raised) (h : cabinet.decode bs = .error e) :
    e.kind.IsA .os := by
  simp only [cabinet] at h
  split at h
  · cases h
  · obtain rfl := Except.error.inj h
    decide

/-- The picture is loaded, the lack of a success is a failure to load, and the bad port escapes. -/
theorem loads_or_raises_in_cabinet :
    cabinet.client.IsDocumented ∧ (∀ bs e, cabinet.decode bs = .error e → e.kind.IsA .os) ∧
    (∃ bs g, cabinet.Offers "dot.ppm" bs ∧ cabinet.decode bs = .ok g ∧
      load cabinet "dot.ppm" = .ok (Picture.ofPixels g) ∧ (Picture.ofPixels g).IsRgb) ∧
    (∃ message, load cabinet "http://example.org/gone" = .error ⟨.imageLoad, message⟩) ∧
    load cabinet "http://a:b/" = .error ⟨.invalidUrl, "Invalid port: 'b'"⟩ := by
  have hloads := loads_or_raises_unless_escapes cabinet isDocumented_cabinet decode_raises_cabinet
  refine ⟨isDocumented_cabinet, decode_raises_cabinet, ?_, ?_, ?_⟩
  · have hok : (load cabinet "dot.ppm").isOk = true := by decide +kernel
    obtain ⟨hpicture | ⟨message, hload⟩ | ⟨e, hescapes⟩, herror⟩ := hloads "dot.ppm"
    · exact hpicture
    · rw [hload] at hok
      cases hok
    · rw [(herror e hescapes).1] at hok
      cases hok
  · have hfails : (load cabinet "http://example.org/gone").isOk = false := by decide +kernel
    obtain ⟨⟨bs, g, -, -, hload, -⟩ | hmessage | ⟨e, ⟨hpath, -⟩ | ⟨-, haddress⟩⟩, -⟩ :=
      hloads "http://example.org/gone"
    · rw [hload] at hfails
      cases hfails
    · exact hmessage
    · exact absurd hpath (by decide +kernel)
    · simp [cabinet] at haddress
  · have hport : cabinet.client.parse "http://a:b/"
        = .error ⟨.invalidUrl, "Invalid port: 'b'"⟩ := by simp [cabinet]
    exact ((hloads "http://a:b/").2 _ (.address (by decide +kernel) hport)).1

/-- …but the directory is no failure to load, and no error of this program at all. -/
theorem raises_isADirectory_in_cabinet :
    load cabinet "d" = .error ⟨.isADirectory, "[Errno 21] Is a directory: 'd'"⟩ ∧
      ¬ ErrorClass.isADirectory.IsA .imageLoad ∧ ¬ ErrorClass.isADirectory.IsA .piet := by
  have hfile : cabinet.file? "d" = some .directory := by decide +kernel
  have herror : systemError .isADirectory 21 "Is a directory" "d"
      = ⟨.isADirectory, "[Errno 21] Is a directory: 'd'"⟩ := by decide +kernel
  have hescapes := Reach.Escapes.directory (by decide) hfile
  rw [herror] at hescapes
  exact ⟨load_of_error (read_of_escapes isDocumented_cabinet hescapes), by decide, by decide⟩

end Source

end PietLang
