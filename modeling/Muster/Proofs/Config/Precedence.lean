import Muster.Session

/-! Where the settings of a run come from. Main statement: each setting of a configuration that could be
loaded is that of a flag, or else that of a variable, or else that of the one file which counts, or else
its default; and no file behind that one makes a difference. -/

namespace Muster

theorem eq_ok_of_toOption {ε α : Type} {x : Except ε α} {a : α} (h : x.toOption = some a) :
    x = .ok a := by
  cases x with
  | error e => exact nomatch h
  | ok a' => exact congrArg _ (Option.some.inj h)

theorem bind_eq_ok {ε α β : Type} {x : Except ε α} {f : α → Except ε β} {b : β}
    (h : (x >>= f) = .ok b) : ∃ a, x = .ok a ∧ f a = .ok b := by
  cases x with
  | error e => exact nomatch h
  | ok a => exact ⟨a, rfl, h⟩

namespace Config

/-- What a group says of the setting with the given name, or with the given place in an array. -/
def setting? (name : String) (i : Nat) : Toml → Option Toml
  | .table _ _ fields => fields.lookup name
  | .inline fields => fields.lookup name
  | .array items => items[i]?
  | .tables items => items[i]?.map (.table false false ·)
  | _ => none

/-- What a document says of a setting of one of its groups. -/
def said? (fields : Toml.Fields) (group name : String) (i : Nat) : Option Toml :=
  (fields.lookup group).bind (setting? name i)

theorem record?_eq {names : List String} {t : Toml} {values : List (Option Toml)}
    (h : record? names t = some values) :
    values = names.zipIdx.map fun (name, i) => setting? name i t := by
  have hrange (f : Nat → Option Toml) :
      (List.range names.length).map f = names.zipIdx.map fun (_, i) => f i := by
    apply List.ext_getElem <;> simp
  have hnames (f : String → Option Toml) : names.map f = names.zipIdx.map fun (name, _) => f name := by
    apply List.ext_getElem <;> simp
  cases t with
  | table isImplicit isDotted fields => exact (Option.some.inj h).symm.trans (hnames _)
  | inline fields => exact (Option.some.inj h).symm.trans (hnames _)
  | moment => exact (Option.some.inj h).symm.trans (hnames _)
  | array items => exact (Option.some.inj h).symm.trans (hrange _)
  | tables items => exact (Option.some.inj h).symm.trans (hrange _)
  | text s => simp [record?] at h
  | whole n => simp [record?] at h
  | real => simp [record?] at h
  | bool b => simp [record?] at h

section Groups

variable {t : Toml}

theorem Api.read_of_ofToml? {api : Api} (h : Api.ofToml? t = some api) :
    orDefault "https://api.upcloud.com/1.3" text? (setting? "url" 0 t) = some api.url ∧
    orDefault "" text? (setting? "username" 1 t) = some api.username ∧
    orDefault "" text? (setting? "password" 2 t) = some api.password ∧
    orDefault 60 count? (setting? "timeout_secs" 3 t) = some api.timeout := by
  obtain ⟨values, hrecord, h⟩ := Option.bind_eq_some_iff.mp h
  obtain rfl := record?_eq hrecord
  obtain ⟨url, hurl, h⟩ := Option.bind_eq_some_iff.mp h
  obtain ⟨username, husername, h⟩ := Option.bind_eq_some_iff.mp h
  obtain ⟨password, hpassword, h⟩ := Option.bind_eq_some_iff.mp h
  obtain ⟨timeout, htimeout, h⟩ := Option.bind_eq_some_iff.mp h
  obtain rfl := Option.some.inj h
  exact ⟨hurl, husername, hpassword, htimeout⟩

theorem Report.read_of_ofToml? {report : Report} (h : Report.ofToml? t = some report) :
    orDefault true bool? (setting? "color" 0 t) = some report.color ∧
    orDefault .human format? (setting? "output" 1 t) = some report.format := by
  obtain ⟨values, hrecord, h⟩ := Option.bind_eq_some_iff.mp h
  obtain rfl := record?_eq hrecord
  obtain ⟨color, hcolor, h⟩ := Option.bind_eq_some_iff.mp h
  obtain ⟨format, hformat, h⟩ := Option.bind_eq_some_iff.mp h
  obtain rfl := Option.some.inj h
  exact ⟨hcolor, hformat⟩

theorem Waiting.read_of_ofToml? {waiting : Waiting} (h : Waiting.ofToml? t = some waiting) :
    orDefault 1000 count? (setting? "wait_interval_ms" 0 t) = some waiting.interval ∧
    orDefault 300 count? (setting? "wait_timeout_secs" 1 t) = some waiting.timeout := by
  obtain ⟨values, hrecord, h⟩ := Option.bind_eq_some_iff.mp h
  obtain rfl := record?_eq hrecord
  obtain ⟨interval, hinterval, h⟩ := Option.bind_eq_some_iff.mp h
  obtain ⟨timeout, htimeout, h⟩ := Option.bind_eq_some_iff.mp h
  obtain rfl := Option.some.inj h
  exact ⟨hinterval, htimeout⟩

end Groups

/-- A setting as a flag gives it, or else a variable, or else a document, or else by default. There is
none if what the document says cannot be read, even where something else comes first. -/
def decided? {α : Type} (flag? set? : Option α) (said? : Option Toml)
    (read? : Toml → Option α) (default : α) : Option α :=
  (orDefault default read? said?).map (flag?.or set?).getD

def seconds? (value : String) : Option Nat := (Text.count? (Text.trim value).toList).map (max 1)

theorem timeoutOf_eq_ok {value : String} {seconds : Nat} (h : timeoutOf value = .ok seconds) :
    seconds? value = some seconds := by
  unfold timeoutOf at h
  split at h
  · rename_i n hn
    rw [seconds?, hn, Option.map_some, Except.ok.inj h]
  · simp at h

/-- Where each setting comes from, given flags, variables and a document. -/
structure Decided (g : CommandLine.Given) (env : String → Option String) (fields : Toml.Fields)
    (c : Config) : Prop where
  url : decided? none ((env "CLOUDCTL_API_URL").filter fun url => !(Text.trim url).isEmpty)
    (said? fields "api" "url" 0) text? "https://api.upcloud.com/1.3" = some c.api.url
  username : decided? none (env "CLOUDCTL_USERNAME") (said? fields "api" "username" 1) text? "" =
    some c.api.username
  password : decided? none (env "CLOUDCTL_PASSWORD") (said? fields "api" "password" 2) text? "" =
    some c.api.password
  timeout : decided? (g.timeout?.map (max 1)) ((env "CLOUDCTL_CLIENT_TIMEOUT").bind seconds?)
    (said? fields "api" "timeout_secs" 3) count? 60 = some c.api.timeout
  color : decided? (if g.noColor then some false else none) none (said? fields "display" "color" 0)
    bool? true = some c.report.color
  format : decided? g.format? none (said? fields "display" "output" 1) format? .human =
    some c.report.format
  interval : decided? none none (said? fields "execution" "wait_interval_ms" 0) count? 1000 =
    some c.waiting.interval
  patience : decided? none none (said? fields "execution" "wait_timeout_secs" 1) count? 300 =
    some c.waiting.timeout
  variable_isSome : ∀ value, env "CLOUDCTL_CLIENT_TIMEOUT" = some value → (seconds? value).isSome

section Absent

variable {α β : Type} {fields : Toml.Fields} {group : String}

/-- A group that a document has not has its defaults, as each of its settings has. -/
theorem read_said? {ofToml? : Toml → Option β} {default b : β} {name : String} {i : Nat}
    {read? : Toml → Option α} (value : β → α)
    (hread : ∀ t b, ofToml? t = some b →
      orDefault (value default) read? (setting? name i t) = some (value b))
    (h : orDefault default ofToml? (fields.lookup group) = some b) :
    orDefault (value default) read? (said? fields group name i) = some (value b) := by
  cases hgroup : fields.lookup group with
  | none =>
    rw [hgroup] at h
    obtain rfl := Option.some.inj h
    rw [said?, hgroup]
    rfl
  | some t =>
    rw [hgroup] at h
    rw [said?, hgroup]
    exact hread t b h

end Absent

/-- What a configuration has before flags: variables first, then what the document says. -/
theorem override_eq_ok {c c' : Config} {env : String → Option String}
    (h : c.override env = .ok c') :
    (∀ value, env "CLOUDCTL_CLIENT_TIMEOUT" = some value → (seconds? value).isSome) ∧
    c' = { c with
      api :=
        { url := ((env "CLOUDCTL_API_URL").filter fun url => !(Text.trim url).isEmpty).getD c.api.url
          username := (env "CLOUDCTL_USERNAME").getD c.api.username
          password := (env "CLOUDCTL_PASSWORD").getD c.api.password
          timeout := ((env "CLOUDCTL_CLIENT_TIMEOUT").bind seconds?).getD c.api.timeout } } := by
  cases hvalue : env "CLOUDCTL_CLIENT_TIMEOUT" with
  | none =>
    simp only [override, timeoutVariable, hvalue] at h
    obtain rfl := Except.ok.inj h
    exact ⟨by simp, rfl⟩
  | some value =>
    simp only [override, timeoutVariable, hvalue] at h
    obtain ⟨seconds, hseconds, h⟩ := bind_eq_ok h
    obtain rfl := Except.ok.inj h
    have hread := timeoutOf_eq_ok hseconds
    refine ⟨?_, by rw [Option.bind_some, hread]; rfl⟩
    intro other hother
    obtain rfl := Option.some.inj hother
    rw [hread]
    rfl

/-- The settings of a configuration that was read from a document, then overridden, then preferred. -/
theorem decided_of_loaded {g : CommandLine.Given} {env : String → Option String}
    {fields : Toml.Fields} {file loaded : Config} (hfile : ofFields? fields = some file)
    (hloaded : file.override env = .ok loaded) : (loaded.prefer g).Decided g env fields := by
  obtain ⟨api, hapi, hrest⟩ := Option.bind_eq_some_iff.mp hfile
  obtain ⟨report, hreport, hrest⟩ := Option.bind_eq_some_iff.mp hrest
  obtain ⟨waiting, hwaiting, hrest⟩ := Option.bind_eq_some_iff.mp hrest
  obtain rfl := Option.some.inj hrest
  obtain ⟨hvalid, rfl⟩ := override_eq_ok hloaded
  have hurl := read_said? Api.url (fun t b h => (Api.read_of_ofToml? h).1) hapi
  have husername :=
    read_said? Api.username (fun t b h => (Api.read_of_ofToml? h).2.1) hapi
  have hpassword :=
    read_said? Api.password (fun t b h => (Api.read_of_ofToml? h).2.2.1) hapi
  have htimeout :=
    read_said? Api.timeout (fun t b h => (Api.read_of_ofToml? h).2.2.2) hapi
  have hcolor := read_said? Report.color (fun t b h => (Report.read_of_ofToml? h).1) hreport
  have hformat :=
    read_said? Report.format (fun t b h => (Report.read_of_ofToml? h).2) hreport
  have hinterval :=
    read_said? Waiting.interval (fun t b h => (Waiting.read_of_ofToml? h).1) hwaiting
  have hpatience :=
    read_said? Waiting.timeout (fun t b h => (Waiting.read_of_ofToml? h).2) hwaiting
  refine ⟨?_, ?_, ?_, ?_, ?_, ?_, ?_, ?_, hvalid⟩
  · rw [decided?, hurl]
    rfl
  · rw [decided?, husername]
    rfl
  · rw [decided?, hpassword]
    rfl
  · rw [decided?, htimeout, Option.map_some, Option.getD_or]
    rfl
  · rw [decided?, hcolor]
    cases hno : g.noColor <;> simp [prefer, hno]
  · rw [decided?, hformat, Option.map_some, Option.or_none]
    rfl
  · rw [decided?, hinterval]
    rfl
  · rw [decided?, hpatience]
    rfl

end Config

/-- The file that a configuration comes from, if any. -/
inductive Config.Source where
  | asked (path : String)
  | near
  | far
  | none
  deriving DecidableEq, Repr

namespace Surroundings

open Config (Source)

variable (place : Surroundings) (g : CommandLine.Given)

/-- The file that is asked for, readable or not; or else the first of the near and the far one that can
be read. -/
def source : Source :=
  match g.config?, place.nearFile.read, place.farFile.read with
  | some path, _, _ => .asked path
  | none, .ok _, _ => .near
  | none, .error _, .ok _ => .far
  | none, .error _, .error _ => .none

def textOf : Source → Except String String
  | .asked path => (place.file path).read
  | .near => place.nearFile.read
  | .far => place.farFile.read
  | .none => .ok ""

/-- Where the file of a source is, and all files that go before it. -/
def pathsTo : Source → List String
  | .asked path => [path]
  | .near => [Config.fileName]
  | .far | .none => Config.fileName :: place.farPath?.toList

theorem read_content (text : String) : (Config.File.content text.toUTF8).read = .ok text := by
  have h : String.fromUTF8? text.toUTF8 = some text := dif_pos text.isValidUTF8
  rw [Config.File.read, h]

theorem choose_eq : Config.choose (g.config?.map place.file) place.nearFile place.farFile =
    (place.textOf (place.source g)).mapError .io := by
  cases hasked : g.config? with
  | some path =>
    simp only [Option.map_some, Config.choose, source, hasked, textOf]
    cases (place.file path).read <;> rfl
  | none =>
    cases hnear : place.nearFile.read with
    | ok text =>
      simp only [Option.map_none, Config.choose, source, hasked, hnear, textOf]
      rfl
    | error reason =>
      cases hfar : place.farFile.read with
      | ok text =>
        simp only [Option.map_none, Config.choose, source, hasked, hnear, hfar, textOf]
        rfl
      | error reason' =>
        simp only [Option.map_none, Config.choose, source, hasked, hnear, hfar, textOf]
        rfl

variable {place g}

theorem farFile_congr {file : String → Config.File}
    (h : ∀ path ∈ place.farPath?, file path = place.file path) :
    ({ place with file } : Surroundings).farFile = place.farFile := by
  have hpath : ({ place with file } : Surroundings).farPath? = place.farPath? := rfl
  rw [farFile, farFile, hpath]
  cases hfar : place.farPath? with
  | none => rfl
  | some path => exact h path hfar

/-- Files behind the one that counts are not looked at. -/
theorem text_congr {file : String → Config.File}
    (h : ∀ path ∈ place.pathsTo (place.source g), file path = place.file path) :
    let place' : Surroundings := { place with file }
    place'.textOf (place'.source g) = place.textOf (place.source g) := by
  intro place'
  cases hasked : g.config? with
  | some path =>
    have hsource (p : Surroundings) : p.source g = .asked path := by simp only [source, hasked]
    rw [hsource] at h
    rw [hsource, hsource]
    exact congrArg Config.File.read (h path (by simp [pathsTo]))
  | none =>
    have hnearPath : Config.fileName ∈ place.pathsTo (place.source g) := by
      simp only [source, hasked]
      split <;> simp_all [pathsTo]
    have hnear : place'.nearFile = place.nearFile := h _ hnearPath
    cases hread : place.nearFile.read with
    | ok text => simp only [source, hasked, hnear, hread, textOf]
    | error reason =>
      have hfar : place'.farFile = place.farFile := by
        apply farFile_congr
        intro path hpath
        apply h
        simp only [source, hasked, hread]
        split <;> simp_all [pathsTo]
      simp only [source, hasked, hnear, hread, hfar]
      cases hfarRead : place.farFile.read with
      | ok text => simp only [textOf, hfar, hfarRead]
      | error reason' => rfl

end Surroundings

namespace Session

open Config

variable {place : Surroundings} {g : CommandLine.Given}

/-- What is loaded and then preferred must have credentials. -/
theorem configure_eq_ok_iff {c : Config} : configure place g = .ok c ↔
    ∃ loaded, load (g.config?.map place.file) place.nearFile place.farFile place.env = .ok loaded ∧
      c = loaded.prefer g ∧ c.hasCredentials = true := by
  constructor
  · intro h
    obtain ⟨loaded, hloaded, h⟩ := bind_eq_ok h
    obtain ⟨_, hrequired, h⟩ := bind_eq_ok h
    obtain rfl := Except.ok.inj h
    refine ⟨loaded, hloaded, rfl, ?_⟩
    unfold requireCredentials at hrequired
    split at hrequired
    · assumption
    · simp at hrequired
  · rintro ⟨loaded, hloaded, rfl, hcredentials⟩
    have hrequired : (loaded.prefer g).requireCredentials = .ok () := by
      rw [requireCredentials, if_pos hcredentials]
    simp only [configure, hloaded, bind, Except.bind, hrequired]
    rfl

theorem ofText_eq_ok {text : String} {c : Config} (h : ofText text = .ok c) :
    ∃ fields, Toml.read? text = some fields ∧ ofFields? fields = some c := by
  unfold ofText at h
  split at h
  · rename_i file hfile
    obtain rfl := Except.ok.inj h
    exact Option.bind_eq_some_iff.mp hfile
  · simp at h

theorem read_of_load {loaded : Config}
    (h : load (g.config?.map place.file) place.nearFile place.farFile place.env = .ok loaded) :
    ∃ text fields file, place.textOf (place.source g) = .ok text ∧
      Toml.read? text = some fields ∧ ofFields? fields = some file ∧
      file.override place.env = .ok loaded := by
  rw [load, Surroundings.choose_eq] at h
  obtain ⟨text, htext, h⟩ := bind_eq_ok h
  obtain ⟨file, hfile, hloaded⟩ := bind_eq_ok h
  obtain ⟨fields, hfields, hfile⟩ := ofText_eq_ok hfile
  refine ⟨text, fields, file, ?_, hfields, hfile, hloaded⟩
  cases hsource : place.textOf (place.source g) with
  | ok text' =>
    rw [hsource] at htext
    cases htext
    rfl
  | error reason =>
    rw [hsource] at htext
    cases htext

/-- A file that is asked for must be readable. A configuration that could be loaded has each of its
settings from a flag, or else from a variable, or else from the one file that counts, or else by
default. What the files behind that one hold makes no difference, for better or worse. -/
theorem settings_by_precedence (place : Surroundings) (g : CommandLine.Given) :
    (∀ reason, place.textOf (place.source g) = .error reason →
      configure place g = .error (.io reason)) ∧
    (∀ c, configure place g = .ok c → ∃ text fields,
      place.textOf (place.source g) = .ok text ∧ Toml.read? text = some fields ∧
      c.Decided g place.env fields) ∧
    ∀ file : String → File, (∀ path ∈ place.pathsTo (place.source g), file path = place.file path) →
      configure { place with file } g = configure place g := by
  refine ⟨fun reason htext => ?_, fun c hc => ?_, fun file hfile => ?_⟩
  · rw [configure, load, Surroundings.choose_eq, htext]
    rfl
  · obtain ⟨loaded, hloaded, rfl, -⟩ := configure_eq_ok_iff.mp hc
    obtain ⟨text, fields, file, htext, hfields, hfile, hloaded⟩ := read_of_load hloaded
    exact ⟨text, fields, htext, hfields, decided_of_loaded hfile hloaded⟩
  · have htext := Surroundings.text_congr hfile
    rw [configure, load, configure, load, Surroundings.choose_eq, Surroundings.choose_eq, htext]

/-- A flag goes before a variable, which goes before the near file, behind which the far one is not
looked at. -/
theorem settings_by_precedence_layered :
    let near : String := "[api]\nurl='a'\n[display]\noutput='json'"
    let place : Surroundings := {
      env := fun name => [("CLOUDCTL_USERNAME", "u"), ("CLOUDCTL_PASSWORD", "p"),
        ("CLOUDCTL_API_URL", " "), ("CLOUDCTL_CLIENT_TIMEOUT", " 7 "), ("HOME", "/home")].lookup name
      file := fun path => if path = fileName then .content near.toUTF8 else .missing }
    let g : CommandLine.Given := { timeout? := some 0, noColor := true }
    let c : Config := { api := ⟨"a", "u", "p", 1⟩, report := ⟨false, .json⟩ }
    let file (path : String) : File := if path = fileName then place.file path else .directory
    configure place g = .ok c ∧
    (∃ text fields, place.textOf (place.source g) = .ok text ∧ Toml.read? text = some fields ∧
      c.Decided g place.env fields) ∧
    configure { place with file } g = .ok c := by
  intro near place g c file
  have hnear : place.nearFile.read = .ok near := Surroundings.read_content near
  have hsource : place.source g = .near := by simp only [Surroundings.source, g, hnear]
  have hc : configure place g = .ok c := eq_ok_of_toOption (by decide +kernel)
  obtain ⟨-, hdecided, hfiles⟩ := settings_by_precedence place g
  refine ⟨hc, hdecided c hc, ?_⟩
  have hsame : ∀ path ∈ place.pathsTo (place.source g), file path = place.file path := by
    intro path hpath
    rw [hsource] at hpath
    obtain rfl : path = fileName := by simpa [Surroundings.pathsTo] using hpath
    exact if_pos rfl
  exact (hfiles file hsame).trans hc

end Session

end Muster
