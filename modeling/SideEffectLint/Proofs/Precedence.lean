import Mathlib
import SideEffectLint.Proofs.Json.Canonical
import SideEffectLint.Settings.Discovery

/-! Which file the settings of a project come from. The first source that there is decides alone, whatever
the sources after it hold: if it cannot be read, no other one stands in for it. The settings are the
default only where no source has any. -/

namespace SideEffectLint

open Json (Decoder Value)

def SettingsFault.path : SettingsFault → SystemText
  | unreadable path _ | malformed path _ | manifestUnreadable path _ | manifestMalformed path _
  | manifestMismatch path _ => path

namespace FileSystem

variable {fs : FileSystem} {path : SystemText} {text : String}

theorem loadSettings_of_readText (h : fs.readText path = .ok text) :
    fs.loadSettings path = (Settings.decoder.decode text).mapError (.malformed path) := by
  rw [loadSettings, h]
  rfl

/-- A manifest tells what its last member for settings does. -/
theorem loadManifest_of_decode {v : Value} (h : fs.readText path = .ok text)
    (hv : Decoder.anything.decode text = .ok v) : fs.loadManifest path =
      match v.canonical.member? Settings.manifestKey with
      | none => .ok none
      | some u => ((Settings.decoder.ofValue u).mapError (.manifestMismatch path)).map some := by
  rw [loadManifest, h]
  simp only [Except.mapError, hv, bind, Except.bind]
  cases v.canonical.member? Settings.manifestKey with
  | none => rfl
  | some u => cases Settings.decoder.ofValue u <;> rfl

theorem loadManifest_of_malformed {fault : Json.TextFault} (h : fs.readText path = .ok text)
    (hv : Decoder.anything.decode text = .error fault) :
    fs.loadManifest path = .error (.manifestMalformed path fault) := by
  rw [loadManifest, h]
  simp only [Except.mapError, hv, bind, Except.bind]

end FileSystem

/-- A file that settings may come from: one of their own, or a manifest with a member for them. -/
inductive SettingsSource where
  | own (path : SystemText)
  | manifest (path : SystemText)

namespace SettingsSource

def path : SettingsSource → SystemText
  | own path | manifest path => path

/-- What a source tells: settings, or nothing if it is a manifest without a member for them. -/
inductive Tells (fs : FileSystem) : SettingsSource → Option Settings → Prop
  | own {path : SystemText} {text : String} {settings : Settings} (hr : fs.readText path = .ok text)
    (hs : Settings.decoder.decode text = .ok settings) : Tells fs (.own path) (some settings)
  | member {path : SystemText} {text : String} {v w : Value} {settings : Settings}
    (hr : fs.readText path = .ok text) (hv : Decoder.anything.decode text = .ok v)
    (hm : v.HasLast Settings.manifestKey w)
    (hs : Settings.decoder.ofValue w.canonical = .ok settings) :
    Tells fs (.manifest path) (some settings)
  | lacking {path : SystemText} {text : String} {v : Value} (hr : fs.readText path = .ok text)
    (hv : Decoder.anything.decode text = .ok v) (hm : v.Lacks Settings.manifestKey) :
    Tells fs (.manifest path) none

def load (fs : FileSystem) : SettingsSource → Except SettingsFault (Option Settings)
  | own path => (fs.loadSettings path).map some
  | manifest path => fs.loadManifest path

/-- What is loaded if the first source tells this. -/
def loaded (source : SettingsSource) : Option Settings → LoadedSettings
  | some settings => ⟨settings, some source.path⟩
  | none => ⟨{}, none⟩

variable {fs fs' : FileSystem} {source : SettingsSource} {told : Option Settings}

/-- Loading looks at nothing but the text of the source. -/
theorem load_congr (h : fs'.readText source.path = fs.readText source.path) :
    source.load fs' = source.load fs := by
  cases source with
  | own path =>
    change fs'.readText path = fs.readText path at h
    simp only [load, FileSystem.loadSettings, h]
  | manifest path =>
    change fs'.readText path = fs.readText path at h
    simp only [load, FileSystem.loadManifest, h]

private theorem load_own_cases (fs : FileSystem) (path : SystemText) :
    (∃ told, (own path).load fs = .ok told ∧ (own path).Tells fs told) ∨
      ∃ fault, (own path).load fs = .error fault ∧ fault.path = path := by
  cases hr : fs.readText path with
  | error fault =>
    refine .inr ⟨.unreadable path fault, ?_, rfl⟩
    rw [load, FileSystem.loadSettings, hr]
    rfl
  | ok text =>
    rw [load, FileSystem.loadSettings_of_readText hr]
    cases hs : Settings.decoder.decode text with
    | error fault => exact .inr ⟨.malformed path fault, rfl, rfl⟩
    | ok settings => exact .inl ⟨some settings, rfl, .own hr hs⟩

private theorem load_manifest_cases (fs : FileSystem) (path : SystemText) :
    (∃ told, (manifest path).load fs = .ok told ∧ (manifest path).Tells fs told) ∨
      ∃ fault, (manifest path).load fs = .error fault ∧ fault.path = path := by
  cases hr : fs.readText path with
  | error fault =>
    refine .inr ⟨.manifestUnreadable path fault, ?_, rfl⟩
    rw [load, FileSystem.loadManifest, hr]
    rfl
  | ok text =>
    cases hv : Decoder.anything.decode text with
    | error fault =>
      exact .inr ⟨.manifestMalformed path fault, FileSystem.loadManifest_of_malformed hr hv, rfl⟩
    | ok v =>
      rw [load, FileSystem.loadManifest_of_decode hr hv]
      cases hm : v.canonical.member? Settings.manifestKey with
      | none => exact .inl ⟨none, rfl, .lacking hr hv (Value.member?_canonical_eq_none_iff.mp hm)⟩
      | some u =>
        obtain ⟨w, hw, rfl⟩ := Value.member?_canonical_eq_some_iff.mp hm
        cases hs : Settings.decoder.ofValue w.canonical with
        | error cause => exact .inr ⟨.manifestMismatch path cause, by simp only [hs]; rfl, rfl⟩
        | ok settings => exact .inl ⟨some settings, by simp only [hs]; rfl, .member hr hv hw hs⟩

/-- Loading gives what the source tells, or else a fault of that source. -/
theorem load_cases (fs : FileSystem) (source : SettingsSource) :
    (∃ told, source.load fs = .ok told ∧ source.Tells fs told) ∨
      ∃ fault, source.load fs = .error fault ∧ fault.path = source.path := by
  cases source with
  | own path => exact load_own_cases fs path
  | manifest path => exact load_manifest_cases fs path

private theorem Tells.load_eq (h : source.Tells fs told) : source.load fs = .ok told := by
  cases h with
  | own hr hs =>
    rw [load, FileSystem.loadSettings_of_readText hr, hs]
    rfl
  | member hr hv hm hs =>
    have hw := Value.member?_canonical_eq_some_iff.mpr ⟨_, hm, rfl⟩
    rw [load, FileSystem.loadManifest_of_decode hr hv, hw]
    simp only [hs]
    rfl
  | lacking hr hv hm =>
    rw [load, FileSystem.loadManifest_of_decode hr hv, Value.member?_canonical_eq_none_iff.mpr hm]

/-- The first source that there is: the file that is named, else the one of the project, else its
manifest. A file that is named is the first source whether it is there or not. -/
inductive IsFirst (fs : FileSystem) (project : SystemText) : Option SystemText → SettingsSource → Prop
  | named (path : SystemText) : IsFirst fs project (some path) (.own path)
  | own (ho : fs.pathExists (Path.join project Settings.fileName)) :
    IsFirst fs project none (.own (Path.join project Settings.fileName))
  | manifest (ho : ¬ fs.pathExists (Path.join project Settings.fileName))
    (hm : fs.pathExists (Path.join project Settings.manifestName)) :
    IsFirst fs project none (.manifest (Path.join project Settings.manifestName))

variable {project : SystemText} {explicit : Option SystemText}

private theorem IsFirst.resolveSettings_eq (h : IsFirst fs project explicit source) :
    fs.resolveSettings project explicit = (source.load fs).map source.loaded := by
  cases h with
  | named path =>
    simp only [FileSystem.resolveSettings, load]
    cases fs.loadSettings path <;> rfl
  | own ho =>
    simp only [FileSystem.resolveSettings, FileSystem.discoverSettings, ho, load]
    cases fs.loadSettings (Path.join project Settings.fileName) <;> rfl
  | manifest ho hm =>
    simp only [FileSystem.resolveSettings, FileSystem.discoverSettings, ho, hm, load]
    cases fs.loadManifest (Path.join project Settings.manifestName) with
    | error fault => rfl
    | ok told => cases told <;> rfl

/-- Without a source the settings are the default. -/
theorem resolveSettings_of_no_source (ho : ¬ fs.pathExists (Path.join project Settings.fileName))
    (hm : ¬ fs.pathExists (Path.join project Settings.manifestName)) :
    fs.resolveSettings project none = .ok ⟨{}, none⟩ := by
  simp only [FileSystem.resolveSettings, FileSystem.discoverSettings, ho, hm]
  rfl

private theorem isFirst_or_no_source (fs : FileSystem) (project : SystemText)
    (explicit : Option SystemText) :
    (∃ source, IsFirst fs project explicit source) ∨ explicit = none ∧
      ¬ fs.pathExists (Path.join project Settings.fileName) ∧
      ¬ fs.pathExists (Path.join project Settings.manifestName) := by
  cases explicit with
  | some path => exact .inl ⟨_, .named path⟩
  | none =>
    by_cases ho : fs.pathExists (Path.join project Settings.fileName)
    · exact .inl ⟨_, .own ho⟩
    · by_cases hm : fs.pathExists (Path.join project Settings.manifestName)
      · exact .inl ⟨_, .manifest ho hm⟩
      · exact .inr ⟨rfl, ho, hm⟩

/-- Sources with the same text lead to the same result, even if it is a fault. -/
theorem IsFirst.resolveSettings_congr (h : IsFirst fs project explicit source)
    (h' : IsFirst fs' project explicit source)
    (ht : fs'.readText source.path = fs.readText source.path) :
    fs'.resolveSettings project explicit = fs.resolveSettings project explicit := by
  rw [h.resolveSettings_eq, h'.resolveSettings_eq, load_congr ht]

/-- Without a path in the result there is no source, or it is a manifest that tells nothing. -/
theorem of_source_eq_none {result : LoadedSettings}
    (h : fs.resolveSettings project explicit = .ok result) (hn : result.source = none) :
    result = ⟨{}, none⟩ ∧ explicit = none ∧
      ¬ fs.pathExists (Path.join project Settings.fileName) ∧
      (fs.pathExists (Path.join project Settings.manifestName) →
        (manifest (Path.join project Settings.manifestName)).Tells fs none) := by
  rcases isFirst_or_no_source fs project explicit with ⟨source, hf⟩ | ⟨rfl, ho, hm⟩
  · rw [hf.resolveSettings_eq] at h
    rcases load_cases fs source with ⟨told, hl, ht⟩ | ⟨fault, hl, -⟩
    · rw [hl] at h
      cases h
      cases told with
      | some settings => cases hn
      | none =>
        -- Only a manifest tells nothing.
        cases hf with
        | named | own => cases ht
        | manifest ho hm => exact ⟨rfl, rfl, ho, fun _ => ht⟩
    · rw [hl] at h
      cases h
  · rw [resolveSettings_of_no_source ho hm] at h
    cases h
    exact ⟨rfl, rfl, ho, fun h => absurd h hm⟩

end SettingsSource

namespace FileSystem

open SettingsSource

/-- The first source of settings decides alone. Two systems with the same text there lead to the same
settings, path or fault, whatever the sources after it are. What the first source tells is loaded, and
if it tells nothing that can be read, the result is a fault of that very file. Settings come from no
path only if there is no source at all or the only one is a manifest without a member for them; then
they are the default. -/
theorem resolveSettings_of_first_source (fs : FileSystem) (project : SystemText) :
    let own := Path.join project Settings.fileName
    let manifest := Path.join project Settings.manifestName
    (∀ (fs' : FileSystem) path, fs'.readText path = fs.readText path →
        fs'.resolveSettings project (some path) = fs.resolveSettings project (some path)) ∧
      (∀ fs' : FileSystem, fs.pathExists own → fs'.pathExists own → fs'.readText own = fs.readText own →
        fs'.resolveSettings project none = fs.resolveSettings project none) ∧
      (∀ fs' : FileSystem, ¬ fs.pathExists own → ¬ fs'.pathExists own →
        fs'.pathExists manifest = fs.pathExists manifest →
        (fs.pathExists manifest → fs'.readText manifest = fs.readText manifest) →
        fs'.resolveSettings project none = fs.resolveSettings project none) ∧
      ∀ explicit,
        (∀ source told, IsFirst fs project explicit source → source.Tells fs told →
          fs.resolveSettings project explicit = .ok (source.loaded told)) ∧
        (∀ source, IsFirst fs project explicit source → (¬ ∃ told, source.Tells fs told) →
          ∃ fault, fs.resolveSettings project explicit = .error fault ∧
            fault.path = source.path) ∧
        ∀ result, fs.resolveSettings project explicit = .ok result → result.source = none →
          result = ⟨{}, none⟩ ∧ explicit = none ∧ ¬ fs.pathExists own ∧
            (fs.pathExists manifest → (SettingsSource.manifest manifest).Tells fs none) := by
  intro own manifest
  refine ⟨fun fs' path ht => ?_, fun fs' ho ho' ht => ?_, fun fs' ho ho' hm ht => ?_,
    fun explicit => ⟨fun source told hf htold => ?_, fun source hf hn => ?_, fun result hr hn => ?_⟩⟩
  · exact (IsFirst.named path).resolveSettings_congr (.named path) ht
  · exact (IsFirst.own ho).resolveSettings_congr (.own ho') ht
  · by_cases h : fs.pathExists manifest
    · exact (IsFirst.manifest ho h).resolveSettings_congr (.manifest ho' (hm ▸ h)) (ht h)
    · have h' : ¬ fs'.pathExists manifest := hm ▸ h
      exact (resolveSettings_of_no_source ho' h').trans (resolveSettings_of_no_source ho h).symm
  · rw [hf.resolveSettings_eq, htold.load_eq]
    rfl
  · rcases load_cases fs source with ⟨told, -, ht⟩ | ⟨fault, hl, hp⟩
    · exact absurd ⟨told, ht⟩ hn
    · refine ⟨fault, ?_, hp⟩
      rw [hf.resolveSettings_eq, hl]
      rfl
  · exact of_source_eq_none hr hn

/-- A project with broken settings of its own beside a manifest. -/
private def withManifest (manifest : String) : FileSystem :=
  .of ⟨.of [.mk ⟨"p", rfl⟩ (.directory (.of
    [.mk ⟨Settings.fileName, rfl⟩ (.file (.ok "\x7b".toUTF8)),
      .mk ⟨Settings.manifestName, rfl⟩ (.file (.ok manifest.toUTF8))]))], rfl⟩ (.ok [])

private theorem readText_withManifest (manifest : String) :
    let path := Path.join "p" Settings.fileName
    (withManifest manifest).pathExists path ∧ (withManifest manifest).readText path = .ok "\x7b" := by
  intro path
  have hentry : (withManifest manifest).entry path = .ok (.file (.ok "\x7b".toUTF8)) := by cbv
  refine ⟨by rw [pathExists, hentry]; rfl, ?_⟩
  rw [readText, hentry]
  cbv

theorem resolveSettings_withManifest :
    let fs := withManifest "\x7b\"sema\":\x7b\"jsonOutput\":true\x7d\x7d"
    let fs' := withManifest "?"
    fs'.resolveSettings "p" none = fs.resolveSettings "p" none ∧
      ∃ fault, fs.resolveSettings "p" none = .error fault ∧
        fault.path = Path.join "p" Settings.fileName := by
  intro fs fs'
  obtain ⟨hexists, hread⟩ :=
    readText_withManifest "\x7b\"sema\":\x7b\"jsonOutput\":true\x7d\x7d"
  obtain ⟨hexists', hread'⟩ := readText_withManifest "?"
  obtain ⟨-, hown, -, hfirst⟩ := resolveSettings_of_first_source fs "p"
  obtain ⟨-, hbroken, -⟩ := hfirst none
  refine ⟨hown fs' hexists hexists' (hread'.trans hread.symm), hbroken _ (.own hexists) ?_⟩
  rintro ⟨told, ht⟩
  cases ht with
  | own hr hs =>
    rw [hread] at hr
    cases hr
    have hd : (Settings.decoder.decode "\x7b").isOk = false := by cbv
    rw [hs] at hd
    cases hd

end FileSystem

end SideEffectLint
