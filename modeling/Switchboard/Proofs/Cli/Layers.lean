import Switchboard.Cli.Run
import Switchboard.Proofs.Cli.Arguments
import Switchboard.Proofs.Config.Values

/-!
# The layers of the settings

A setting is taken from the first layer that has it: the command line, the environment, the file
that is named, the defaults. The layers are merged first; only what comes out is checked.

* `givenAt?` is what command line and environment have under a path of the configuration.
* `Underlies` relates the file that is named to what it says, `Tells` that to its configuration, and
  `Merged` relates all layers to the configuration that comes out of them.
* `underlies_of_base` and `base_of_underlies` are about what options are put into, and
  `value_of_override` says what they put in.
* `layered_of_read` puts this together, with all that can go wrong.
-/

namespace Switchboard.Cli

open Config (documentValue?)

/-! ## The layers -/

/-- The setting that is put in under a path. -/
def Setting.ofPath? : List String → Option Setting
  | ["domain", "name"] => some domain
  | ["domain", "realm"] => some realm
  | ["rpc", "router_address"] => some router
  | ["rpc", "advertise_port"] => some advertisePort
  | _ => none

/-- What is given under a path: on the command line, else in the environment. -/
def givenAt? (arguments : List String) (env : String → Option String) (path : List String) :
    Option Toml :=
  (Setting.ofPath? path).bind fun s => (s.given? arguments env).bind s.meaning?

/-- The entries under the options: those of the file that is named, which loads, or none. -/
inductive Underlies (read : String → Except FileFault (List UInt8)) :
    Option String → List Toml.Entry → Prop
  | nothing : Underlies read none []
  | file {path : String} {bytes : List UInt8} {text : List Char} {document : List Toml.Entry}
    {base : Config} (hread : read path = .ok bytes) (htext : Utf8.decode bytes = some text)
    (hparse : Toml.parse? (String.ofList text) = some document)
    (hload : Config.load path (read path) = .ok base) : Underlies read (some path) document

/-- A configuration has under each path what a document has there, else the default. -/
def Tells (document : List Toml.Entry) (c : Config) : Prop :=
  ∀ path ∈ Config.paths,
    c.value? path = (documentValue? document path).or (({} : Config).value? path)

/-- A configuration has under each path what is given, else what the document has, else the
default. -/
def Merged (arguments : List String) (env : String → Option String) (document : List Toml.Entry)
    (c : Config) : Prop :=
  ∀ path ∈ Config.paths, c.value? path =
    ((givenAt? arguments env path).or (documentValue? document path)).or (({} : Config).value? path)

section layers

variable {read : String → Except FileFault (List UInt8)} {o : Options} {c base : Config}
  {document : List Toml.Entry}

/-! ## The base -/

/-- The base fails when the named file does not load. -/
lemma base_eq_error_iff {e : ConfigFailure} : o.base read = .error e ↔ ∃ path cause,
    o.config = some path ∧ Config.load path (read path) = .error cause ∧ e = .load path cause := by
  unfold Options.base
  cases o.config with
  | none => simp
  | some path => cases hload : Config.load path (read path) <;> simp [hload, eq_comm]

/-- What is loaded as the base tells what the document under it says. -/
theorem underlies_of_base (h : o.base read = .ok base) :
    ∃ document, Underlies read o.config document ∧ Tells document base := by
  unfold Options.base at h
  split at h
  · next hconfig =>
    obtain rfl := Except.ok.inj h
    exact ⟨[], hconfig ▸ .nothing, fun path _ => by rw [Config.documentValue?_nil, Option.none_or]⟩
  next path hconfig =>
  split at h
  · next hload =>
    obtain rfl := Except.ok.inj h
    obtain ⟨bytes, text, document, hread, htext, hparse, hdecode⟩ := Config.load_eq_ok_iff.1 hload
    exact ⟨document, hconfig ▸ .file hread htext hparse hload,
      fun path => Config.value_of_ofToml hdecode⟩
  · exact absurd h (by simp)

/-- A document that can lie under the options is loaded. -/
theorem base_of_underlies {named : Option String} (hconfig : o.config = named)
    (h : Underlies read named document) :
    ∃ base, o.base read = .ok base ∧ Tells document base := by
  cases h with
  | nothing =>
    refine ⟨{}, by simp only [Options.base, hconfig], fun path _ => ?_⟩
    rw [Config.documentValue?_nil, Option.none_or]
  | @file path _ _ _ base hread htext hparse hload =>
    obtain ⟨bytes, text, document, hread', htext', hparse', hdecode⟩ :=
      Config.load_eq_ok_iff.1 hload
    obtain rfl := Except.ok.inj (hread.symm.trans hread')
    obtain rfl := Option.some.inj (htext.symm.trans htext')
    obtain rfl := Option.some.inj (hparse.symm.trans hparse')
    exact ⟨base, by simp only [Options.base, hconfig, hload],
      fun path => Config.value_of_ofToml hdecode⟩

/-! ## Options put in -/

/-- An override has the value that the options say, and else that of the base. -/
theorem value_of_override (o : Options) (base : Config) : ∀ path ∈ Config.paths,
    (o.override base).value? path =
      ((Setting.ofPath? path).bind o.entry?).or (base.value? path) := by
  rw [Config.forall_paths_iff]
  refine ⟨rfl, ?_, ?_, ?_, ?_, rfl, rfl, rfl, rfl, rfl, rfl⟩
  · change some (Toml.str (o.domain.getD base.domain.name))
      = (o.domain.map Toml.str).or (some (.str base.domain.name))
    cases o.domain <;> rfl
  · change some (Toml.str (o.realm.getD base.domain.realm))
      = (o.realm.map Toml.str).or (some (.str base.domain.realm))
    cases o.realm <;> rfl
  · rw [(Config.value?_rpc _).1, (Config.value?_rpc _).1]
    change some (Toml.str (o.router.getD base.rpc.routerAddress))
      = (o.router.map Toml.str).or (some (.str base.rpc.routerAddress))
    cases o.router <;> rfl
  · rw [(Config.value?_rpc _).2, (Config.value?_rpc _).2]
    change (o.advertisePort.orElse fun _ => base.rpc.advertisePort).map _
      = (o.advertisePort.map _).or _
    cases o.advertisePort <;> rfl

/-- The merged configuration is the override of the base. -/
lemma merged_iff {arguments : List String} {env : String → Option String}
    (ho : Options.read arguments env = .ok o) (hbase : Tells document base) :
    Merged arguments env document c ↔ c = o.override base := by
  have hgiven (path : List String) :
      (Setting.ofPath? path).bind o.entry? = givenAt? arguments env path := by
    rw [givenAt?, funext (Options.entry_of_read ho)]
  have hmerged : Merged arguments env document (o.override base) := fun path hpath => by
    rw [value_of_override o base path hpath, hgiven, hbase path hpath, Option.or_assoc]
  constructor
  · exact fun h => Config.eq_of_value fun path hpath =>
      (h path hpath).trans (hmerged path hpath).symm
  · rintro rfl
    exact hmerged

/-- What holds of some base with the options put in holds of some merged configuration. -/
lemma exists_merged_iff {arguments : List String} {env : String → Option String}
    (ho : Options.read arguments env = .ok o) (P : Config → Prop) :
    (∃ base, o.base read = .ok base ∧ P (o.override base)) ↔
      ∃ document c, Underlies read o.config document ∧ Merged arguments env document c ∧ P c := by
  constructor
  · rintro ⟨base, hbase, h⟩
    obtain ⟨document, hunder, htells⟩ := underlies_of_base hbase
    exact ⟨document, _, hunder, (merged_iff ho htells).2 rfl, h⟩
  · rintro ⟨document, c, hunder, hmerged, h⟩
    obtain ⟨base, hbase, htells⟩ := base_of_underlies rfl hunder
    obtain rfl := (merged_iff ho htells).1 hmerged
    exact ⟨base, hbase, h⟩

/-- The configuration fails with its base or in its validation. -/
lemma toConfig_eq_error_iff {e : ConfigFailure} : o.toConfig read = .error e ↔
    o.base read = .error e ∨ ∃ base fault, o.base read = .ok base ∧
      (o.override base).validate = .error fault ∧ e = .invalid fault := by
  unfold Options.toConfig
  cases o.base read with
  | error cause => simp [bind, Except.bind]
  | ok base =>
    cases hvalid : (o.override base).validate <;> simp [bind, Except.bind, hvalid, eq_comm]

end layers

/-- A command whose options are accepted has settings exactly if the file that is named loads and
the merged settings pass the check: under each path what the command line gives, else the
environment, else the file, else the default. Otherwise the error is the first fault of the merged
settings, or what is wrong with the file. Each value that is given has a meaning. -/
theorem layered_of_read {arguments : List String} {env : String → Option String} {o : Options}
    (ho : Options.read arguments env = .ok o) (read : String → Except FileFault (List UInt8)) :
    (∀ c, o.toConfig read = .ok c ↔ ∃ document,
      Underlies read (Setting.config.given? arguments env) document ∧
      Merged arguments env document c ∧ c.validate = .ok ()) ∧
    (∀ fault, o.toConfig read = .error (.invalid fault) ↔ ∃ document c,
      Underlies read (Setting.config.given? arguments env) document ∧
      Merged arguments env document c ∧ c.validate = .error fault) ∧
    (∀ path cause, o.toConfig read = .error (.load path cause) ↔
      Setting.config.given? arguments env = some path ∧
      Config.load path (read path) = .error cause) ∧
    ∀ (s : Setting) value, s.given? arguments env = some value →
      ∃ v, s.meaning? value = some v := by
  -- the file that is named is the one that was read for the options
  rw [← Options.config_of_read ho]
  refine ⟨fun c => ?_, fun fault => ?_, fun path cause => ?_, fun s value hvalue => ?_⟩
  · refine toConfig_eq_ok_iff.trans
      ((exists_merged_iff ho fun x => c = x ∧ c.validate = .ok ()).trans ⟨?_, ?_⟩)
    · rintro ⟨document, _, hunder, hmerged, rfl, hvalid⟩
      exact ⟨document, hunder, hmerged, hvalid⟩
    · rintro ⟨document, hunder, hmerged, hvalid⟩
      exact ⟨document, c, hunder, hmerged, rfl, hvalid⟩
  · refine Iff.trans ?_ (exists_merged_iff ho fun x => x.validate = .error fault)
    rw [toConfig_eq_error_iff]
    constructor
    · rintro (hload | ⟨base, fault, hbase, hfault, heq⟩)
      · obtain ⟨path, cause, -, -, heq⟩ := base_eq_error_iff.1 hload
        exact absurd heq (by simp)
      · obtain rfl := ConfigFailure.invalid.inj heq
        exact ⟨base, hbase, hfault⟩
    · rintro ⟨base, hbase, hfault⟩
      exact .inr ⟨base, fault, hbase, hfault, rfl⟩
  · rw [toConfig_eq_error_iff, base_eq_error_iff]
    constructor
    · rintro (⟨_, _, hconfig, hload, heq⟩ | ⟨base, fault, -, -, heq⟩)
      · obtain ⟨rfl, rfl⟩ := ConfigFailure.load.inj heq
        exact ⟨hconfig, hload⟩
      · exact absurd heq (by simp)
    · rintro ⟨hconfig, hload⟩
      exact .inl ⟨path, cause, hconfig, hload, rfl⟩
  · obtain ⟨v, hmeaning, -⟩ := Options.meaning_of_read ho hvalue
    exact ⟨v, hmeaning⟩

/-! ## Two files -/

/-- A file whose domain cannot be routed to, and one that is in order. -/
def faultyAndSound (path : String) : Except FileFault (List UInt8) :=
  if path = "faulty.toml" then
    .ok (Utf8.encode "log_level = \"debug\"\n\n[domain]\nname = \"a/b\"\n".toList)
  else if path = "sound.toml" then .ok (Utf8.encode "[domain]\nname = \"east\"\n".toList)
  else .error .notFound

/-- A command line with a domain of its own. -/
def mending : List String := ["--config=faulty.toml", "--domain", "west"]

/-- A command line with a router that is none. -/
def spoiling : List String := ["--config", "sound.toml", "--router=nowhere"]

/-- An environment with another domain and a realm. -/
def northern (name : String) : Option String :=
  [("BACKPLANE_DOMAIN", "south"), ("BACKPLANE_REALM", "north")].lookup name

/-- What the first command line and the environment say. -/
def mended : Options where
  config := some "faulty.toml"
  domain := some "west"
  realm := some "north"

/-- The settings that come out of it. -/
def mendedConfig : Config where
  logLevel := "debug"
  domain := ⟨"west", "north"⟩

/-- What the second command line says. -/
def spoiled : Options where
  config := some "sound.toml"
  router := some "nowhere"

/-- A file that is refused by itself is accepted with another domain, and a file that is accepted by
itself is refused with another router. -/
theorem layered_of_mending :
    Options.read mending northern = .ok mended ∧
    ({ config := some "faulty.toml" } : Options).toConfig faultyAndSound
      = .error (.invalid (.domainName (.slash "a/b"))) ∧
    (∃ document, Underlies faultyAndSound (some "faulty.toml") document ∧
      Merged mending northern document mendedConfig ∧ mendedConfig.validate = .ok ()) ∧
    Options.read spoiling (fun _ => none) = .ok spoiled ∧
    ({ config := some "sound.toml" } : Options).toConfig faultyAndSound
      = .ok { domain := ⟨"east", "default"⟩ } ∧
    ∃ document c, Underlies faultyAndSound (some "sound.toml") document ∧
      Merged spoiling (fun _ => none) document c ∧
      c.validate = .error (.routerAddress "nowhere") := by
  have hmending : Options.read mending northern = .ok mended := by decide +kernel
  have hmended : mended.toConfig faultyAndSound = .ok mendedConfig := by decide +kernel
  have hspoiling : Options.read spoiling (fun _ => none) = .ok spoiled := by decide +kernel
  have hspoiled : spoiled.toConfig faultyAndSound
      = .error (.invalid (.routerAddress "nowhere")) := by decide +kernel
  obtain ⟨haccepted, -⟩ := layered_of_read hmending faultyAndSound
  obtain ⟨-, hrefused, -⟩ := layered_of_read hspoiling faultyAndSound
  exact ⟨hmending, by decide +kernel, (haccepted _).1 hmended, hspoiling, by decide +kernel,
    (hrefused _).1 hspoiled⟩

end Switchboard.Cli
