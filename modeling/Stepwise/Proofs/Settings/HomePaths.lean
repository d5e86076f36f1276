import Stepwise.Proofs.Files.Components
import Stepwise.Proofs.Settings.Layers

/-!
# Paths from the home folder

A path that starts with a tilde is taken from the home folder, by the components that stand behind
the tilde. Where these are told from the tilde by one slash, they follow those of the home folder.
Behind two slashes they are read as a path from the root, which takes the place of the home folder.
-/

namespace Stepwise

open Stepwise.Path (Component components)

/-- A path starts at the home folder: it is a tilde, or goes on behind one with a slash. -/
def StartsAtHome (path : String) : Prop :=
  Text.trim path = "~" ∨ ['~', '/'] <+: (Text.trim path).toList

/-- A path goes on behind the tilde with two slashes. -/
def HasTwoSlashes (path : String) : Prop :=
  ['~', '/', '/'] <+: (Text.trim path).toList

instance (path : String) : Decidable (StartsAtHome path) :=
  inferInstanceAs (Decidable (_ ∨ _))

instance (path : String) : Decidable (HasTwoSlashes path) :=
  inferInstanceAs (Decidable (_ <+: _))

/-- What stands behind the tilde of a path is taken from a base. -/
def TakenFrom (base : List Component) (path resolved : String) : Prop :=
  ∃ remaining, components (Text.trim path) = .normal "~" :: remaining ∧
    components resolved = base ++ remaining

/-! ## Components behind a tilde -/

theorem components_tilde : components "~" = [.normal "~"] := by decide +kernel

theorem components_tilde_slash {path : String} {rest : List Char}
    (hpath : path.toList = '~' :: '/' :: rest) :
    components path = .normal "~" :: (Path.names (String.ofList rest)).map .ofName := by
  have hsplit : path = String.ofList (['~'] ++ '/' :: rest) :=
    String.toList_inj.mp (hpath.trans String.toList_ofList.symm)
  have hparts : Path.parts path = "~" :: Path.parts (String.ofList rest) := by
    rw [hsplit, Path.parts_append_slash]
    rfl
  have hrelative : Path.isAbsolute path = false := by simp [Path.isAbsolute, hpath]
  have hlead : Path.lead path = [] := by simp [Path.lead, hrelative, hparts]
  have hnames : Path.names path = "~" :: Path.names (String.ofList rest) := by
    simp [Path.names, hparts]
  rw [components, hlead, hnames]
  rfl

namespace Environment

variable {env : Environment} {path : String}

theorem expandTilde_tilde (hpath : Text.trim path = "~") : env.expandTilde path = env.home := by
  simp [expandTilde, hpath]

theorem expandTilde_tilde_slash {rest : List Char}
    (hpath : (Text.trim path).toList = '~' :: '/' :: rest) :
    env.expandTilde path = Path.join env.home (String.ofList rest) := by
  have hne : Text.trim path ≠ "~" := by
    intro htilde
    rw [htilde] at hpath
    cases hpath
  simp [expandTilde, hne, behindTilde?, hpath]

/-- Behind a tilde and one slash, the components follow those of the home folder. -/
theorem takenFrom_home (hhome : Path.isAbsolute env.home = true) (hpath : StartsAtHome path)
    (hone : ¬HasTwoSlashes path) :
    TakenFrom (components env.home) path (env.expandTilde path) := by
  obtain htilde | ⟨rest, hrest⟩ := hpath
  · rw [expandTilde_tilde htilde, TakenFrom, htilde]
    exact ⟨[], components_tilde, (List.append_nil _).symm⟩
  · have hne : env.home ≠ "" := by
      intro hempty
      rw [hempty] at hhome
      cases hhome
    have hrelative : Path.isAbsolute (String.ofList rest) = false := by
      rw [Path.isAbsolute, String.toList_ofList]
      refine beq_false_of_ne fun hhead => hone ?_
      obtain ⟨behind, rfl⟩ := List.head?_eq_some_iff.mp hhead
      exact ⟨behind, hrest⟩
    have htrim : (Text.trim path).toList = '~' :: '/' :: rest := hrest.symm
    refine ⟨_, components_tilde_slash htrim, ?_⟩
    rw [expandTilde_tilde_slash htrim, Path.components_join hne hrelative,
      Path.components_filter hrelative]

/-- Behind a tilde and two slashes, the components follow the root. -/
theorem takenFrom_root (env : Environment) (hpath : HasTwoSlashes path) :
    TakenFrom [.root] path (env.expandTilde path) := by
  obtain ⟨rest, hrest⟩ := hpath
  have htrim : (Text.trim path).toList = '~' :: '/' :: '/' :: rest := hrest.symm
  have habsolute : Path.isAbsolute (String.ofList ('/' :: rest)) = true := by
    simp [Path.isAbsolute]
  refine ⟨_, components_tilde_slash htrim, ?_⟩
  rw [expandTilde_tilde_slash htrim, Path.join, habsolute, Bool.true_or, if_pos rfl, components,
    Path.lead, if_pos habsolute]

/-- A path that starts at the home folder is taken from there unless two slashes stand behind the
tilde; then it is taken from the root. -/
theorem takenFrom_home_iff (hhome : Path.isAbsolute env.home = true) (hpath : StartsAtHome path) :
    TakenFrom (components env.home) path (env.expandTilde path) ↔
      ¬HasTwoSlashes path ∨ components env.home = [.root] := by
  constructor
  · rintro ⟨remaining, hremaining, hresolved⟩
    refine or_iff_not_imp_left.mpr fun htwo => ?_
    obtain ⟨others, hothers, hroot⟩ := takenFrom_root env (not_not.mp htwo)
    obtain rfl := List.tail_eq_of_cons_eq (hremaining.symm.trans hothers)
    exact List.append_cancel_right (hresolved.symm.trans hroot)
  · rintro (hone | hroot)
    · exact takenFrom_home hhome hpath hone
    · by_cases htwo : HasTwoSlashes path
      · rw [hroot]
        exact takenFrom_root env htwo
      · exact takenFrom_home hhome hpath htwo

/-- A layer of values that are changed is the change of a layer. -/
theorem Layer.exists_eq {α β : Type} {name : String} {change : String → α} {f : α → β}
    {below : α} {b : β}
    (hlayer : env.Layer name (fun value b => b = f (change value)) (f below) b) :
    ∃ a, env.Layer name (fun value a => a = change value) below a ∧ b = f a := by
  obtain ⟨value, hset, rfl⟩ | ⟨hunset, rfl⟩ := hlayer
  · exact ⟨change value, .inl ⟨value, hset, rfl⟩, rfl⟩
  · exact ⟨below, .inr ⟨hunset, rfl⟩, rfl⟩

end Environment

/-! ## Paths in settings -/

namespace Settings

variable {files : FileTree} {env : Environment} {path : String} {s : Settings}

/-- The settings that are paths, each with its variable. -/
def pathSettings : List (String × (Settings → String)) :=
  [("WORKLINE_FILES_DIR", filesDir), ("WORKLINE_PROCESSES_DIR", processesDir),
    ("WORKLINE_RECORDS_PATH", recordsPath)]

/-- A path setting is loaded as its variable has it, or else what is below, from the home folder. -/
theorem expandTilde_of_layered {below : Settings} (hlayered : Layered env below s)
    {setting : String × (Settings → String)} (hsetting : setting ∈ pathSettings) :
    ∃ configured,
      env.Layer setting.1 (fun value text => text = value) (setting.2 below) configured ∧
        setting.2 s = env.expandTilde configured := by
  simp only [pathSettings, List.mem_cons, List.not_mem_nil, or_false] at hsetting
  obtain rfl | rfl | rfl := hsetting
  · exact hlayered.filesDir.exists_eq
  · exact hlayered.processesDir.exists_eq
  · exact hlayered.recordsPath.exists_eq

/-- A path that starts at an absolute home folder is taken from there unless two slashes stand
behind the tilde: then it is taken from the root, and only a home folder that is the root makes no
difference. So it is with each path of the settings that are loaded. -/
theorem home_paths_unless_two_slashes (env : Environment)
    (hhome : Path.isAbsolute env.home = true) :
    (∀ path, StartsAtHome path →
      (TakenFrom (components env.home) path (env.expandTilde path) ↔
          ¬HasTwoSlashes path ∨ components env.home = [.root]) ∧
        (HasTwoSlashes path → TakenFrom [.root] path (env.expandTilde path))) ∧
      ∀ files path s, loadFrom files env path = .ok s →
        ∃ below, FileMeans files path below ∧
          ∀ setting ∈ pathSettings, ∃ configured,
            env.Layer setting.1 (fun value text => text = value) (setting.2 below) configured ∧
              (StartsAtHome configured →
                (TakenFrom (components env.home) configured (setting.2 s) ↔
                    ¬HasTwoSlashes configured ∨ components env.home = [.root]) ∧
                  (HasTwoSlashes configured → TakenFrom [.root] configured (setting.2 s))) := by
  refine ⟨fun path hpath => ⟨Environment.takenFrom_home_iff hhome hpath, env.takenFrom_root⟩, ?_⟩
  intro files path s hok
  obtain ⟨below, hfile, hlayered⟩ := layered_of_loadFrom hok
  refine ⟨below, hfile, fun setting hsetting => ?_⟩
  obtain ⟨configured, hconfigured, hresolved⟩ := expandTilde_of_layered hlayered hsetting
  refine ⟨configured, hconfigured, fun hstarts => ?_⟩
  rw [hresolved]
  exact ⟨Environment.takenFrom_home_iff hhome hstarts, env.takenFrom_root⟩

/-- A variable with a tilde and one slash leads below the home folder, also where the path goes up
again. -/
theorem home_paths_of_one_slash :
    let env : Environment := [("HOME", "/home/o"), ("WORKLINE_FILES_DIR", " ~/../forms ")]
    Path.isAbsolute env.home = true ∧
      TakenFrom (components env.home) " ~/../forms " (env.expandTilde " ~/../forms ") ∧
      ∃ s, loadFrom [] env "s.json" = .ok s ∧
        TakenFrom (components env.home) "~/../forms" s.filesDir := by
  intro env
  have hhome : Path.isAbsolute env.home = true := by decide +kernel
  obtain ⟨hpaths, hsettings⟩ := home_paths_unless_two_slashes env hhome
  obtain ⟨s, hok⟩ : ∃ s, loadFrom [] env "s.json" = .ok s := ⟨_, rfl⟩
  refine ⟨hhome, ?_, s, hok, ?_⟩
  · exact (hpaths _ (by decide +kernel)).1.mpr (.inl (by decide +kernel))
  · obtain ⟨below, -, hsettings⟩ := hsettings [] "s.json" s hok
    obtain ⟨configured, hconfigured, hresolved⟩ :=
      hsettings ("WORKLINE_FILES_DIR", filesDir) List.mem_cons_self
    have hvalue : env.value? "WORKLINE_FILES_DIR" = some "~/../forms" := by decide +kernel
    rw [Environment.layer_iff, hvalue] at hconfigured
    subst hconfigured
    exact (hresolved (by decide +kernel)).1.mpr (.inl (by decide +kernel))

/-- Two slashes behind the tilde lead to the root, past the home folder. -/
theorem home_path_of_two_slashes :
    let env : Environment := [("HOME", "/home/oracle")]
    Path.isAbsolute env.home = true ∧ StartsAtHome "~//data" ∧
      env.expandTilde "~//data" = "/data" ∧
      ¬∃ remaining, components (env.expandTilde "~//data") = components env.home ++ remaining := by
  intro env
  have hexpanded : env.expandTilde "~//data" = "/data" := by decide +kernel
  have hcomponents : components "/data" = [.root, .normal "data"] := by decide +kernel
  have hhome : components env.home = [.root, .normal "home", .normal "oracle"] := by decide +kernel
  refine ⟨by decide +kernel, by decide +kernel, hexpanded, ?_⟩
  rintro ⟨remaining, hremaining⟩
  rw [hexpanded, hcomponents, hhome] at hremaining
  simp at hremaining

end Settings

end Stepwise
