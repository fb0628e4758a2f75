import Mathlib
import ModuleGraph.Proofs.Outcome
import ModuleGraph.Settings.Layers

/-!
# Laying a file over settings

The members of a file are laid over the settings one by one, in the order of their keys, and each of
them changes the setting that its key names or nothing (`Settings.ends_put`). What stops a file is
the first member that cannot be read, and the settings then are what the members before it have made
of them (`Settings.mergeFile_stops`).
-/

namespace ModuleGraph

/-- What a text says about a setting, as the setting is shown; nothing if it cannot be read. -/
def Setting.value? (setting : Setting) (text : String) : Option (Option String) :=
  (Settings.standard.assign? setting text).map (·.textOf setting)

namespace Settings

variable {settings settings' other : Settings} {setting : Setting} {text path : String}
  {members : List (String × Toml)} {m : String × Toml}

/-! ## One setting -/

/-- Numbers that are shown alike are the same. -/
theorem toNat_inj_of_toString {a b : UInt64} (h : toString a.toNat = toString b.toNat) :
    a = b := by
  have hdigits := congrArg String.toList h
  rw [Nat.toString_eq_repr, Nat.toString_eq_repr, Nat.toList_repr, Nat.toList_repr] at hdigits
  have hvalue := congrArg (Nat.ofDigitChars 10 · 0) hdigits
  exact UInt64.toNat_inj.1 (by simpa using hvalue)

/-- Settings are told by what they show. -/
theorem eq_of_textOf (h : ∀ setting, settings.textOf setting = other.textOf setting) :
    settings = other := by
  have himportMap : settings.importMap = other.importMap := h .importMap
  have hfetches : settings.maxConcurrentFetches = other.maxConcurrentFetches :=
    toNat_inj_of_toString (Option.some.inj (h .maxConcurrentFetches))
  have hremote : settings.allowRemote = other.allowRemote := by
    have hshown : (if settings.allowRemote then "true" else "false") =
        if other.allowRemote then "true" else "false" := Option.some.inj (h .allowRemote)
    cases hflag : settings.allowRemote <;> cases hflag' : other.allowRemote <;>
      simp [hflag, hflag'] at hshown ⊢
  have htimeout : settings.timeout = other.timeout :=
    toNat_inj_of_toString (Option.some.inj (h .timeout))
  have hlogLevel : settings.logLevel = other.logLevel := Option.some.inj (h .logLevel)
  cases settings
  cases other
  simp_all

/-- Reading a setting from a text gives it what the text says and leaves the others alone. -/
theorem textOf_assign? (h : settings.assign? setting text = some settings') :
    setting.value? text = some (settings'.textOf setting) ∧
      ∀ s, s ≠ setting → settings'.textOf s = settings.textOf s := by
  cases setting
  case importMap | logLevel =>
    cases h
    exact ⟨rfl, fun s hs => by cases s <;> first | rfl | exact absurd rfl hs⟩
  all_goals
    obtain ⟨value, hvalue, rfl⟩ := Option.map_eq_some_iff.1 h
    exact ⟨by simp [Setting.value?, assign?, hvalue, textOf],
      fun s hs => by cases s <;> first | rfl | exact absurd rfl hs⟩

/-- Whether a text can be read does not depend on the settings. -/
theorem assign?_eq_none_iff :
    settings.assign? setting text = none ↔ setting.value? text = none := by
  cases setting <;> simp [Setting.value?, assign?]

/-! ## Members of a file -/

/-- A member can be laid over settings: its key names no setting, or its value can be read. -/
def Usable (m : String × Toml) : Prop :=
  ∀ setting, Setting.ofKey? m.1 = some setting → setting.value? m.2.plainText ≠ none

/-- What members say about a setting: what the last of those says whose keys name it. -/
def said? (members : List (String × Toml)) (setting : Setting) : Option (Option String) :=
  (members.filter fun m => Setting.ofKey? m.1 = some setting).getLast?.bind fun m =>
    setting.value? m.2.plainText

/-- The settings are the others but for what members say. -/
def Laid (members : List (String × Toml)) (settings settings' : Settings) : Prop :=
  ∀ setting, settings'.textOf setting = (said? members setting).getD (settings.textOf setting)

/-- A member with another key says nothing about a setting. -/
theorem said?_concat_of_ne (h : Setting.ofKey? m.1 ≠ some setting) :
    said? (members ++ [m]) setting = said? members setting := by
  simp [said?, h]

/-- The last member that names a setting says what counts. -/
theorem said?_concat (h : Setting.ofKey? m.1 = some setting) :
    said? (members ++ [m]) setting = setting.value? m.2.plainText := by
  simp [said?, h]

/-- Where no member names a setting, nothing is said about it. -/
theorem said?_eq_none (h : ∀ m ∈ members, Setting.ofKey? m.1 ≠ some setting) :
    said? members setting = none := by
  have hnone : (members.filter fun m => Setting.ofKey? m.1 = some setting) = [] := by
    simpa using fun name value => h (name, value)
  simp [said?, hnone]

/-- Members that name no settings change nothing. -/
theorem Laid.eq (h : Laid members settings settings')
    (hnone : ∀ m ∈ members, Setting.ofKey? m.1 = none) : settings' = settings := by
  refine eq_of_textOf fun setting => ?_
  rw [h setting, said?_eq_none fun m hm => by simp [hnone m hm]]
  rfl

/-- A member changes the setting that its key names, or cannot be read and changes nothing. -/
theorem ends_put (hlaid : Laid members settings settings') :
    Ends (put m.1 m.2.plainText) settings'
      (fun _ settings'' => Usable m ∧ Laid (members ++ [m]) settings settings'')
      (fun fault settings'' => ¬ Usable m ∧ fault = .invalidValue m.1 m.2.plainText ∧
        settings'' = settings') := by
  unfold Ends put set
  cases hkey : Setting.ofKey? m.1 with
  | none =>
      refine ⟨fun setting hsetting => by simp [hkey] at hsetting, fun setting => ?_⟩
      rw [said?_concat_of_ne (by simp [hkey])]
      exact hlaid setting
  | some named =>
      dsimp only
      cases hassign : settings'.assign? named m.2.plainText with
      | none =>
          exact ⟨fun husable => husable named hkey (assign?_eq_none_iff.1 hassign), rfl, rfl⟩
      | some settings'' =>
          obtain ⟨hvalue, hothers⟩ := textOf_assign? hassign
          refine ⟨fun setting hsetting => ?_, fun setting => ?_⟩
          · obtain rfl : named = setting := Option.some.inj (hkey.symm.trans hsetting)
            simp [hvalue]
          · by_cases hsame : setting = named
            · rw [hsame, said?_concat hkey, hvalue]
              rfl
            · rw [said?_concat_of_ne (by simpa [hkey] using Ne.symm hsame), hothers setting hsame]
              exact hlaid setting

/-- The first of the members that cannot be read has stopped them with a fault: those before it have
been laid over the settings. -/
def Stopped (members : List (String × Toml)) (settings : Settings) (fault : SettingsFault)
    (settings' : Settings) : Prop :=
  ∃ before bad after, members = before ++ bad :: after ∧ (∀ m ∈ before, Usable m) ∧
    ¬ Usable bad ∧ fault = .invalidValue bad.1 bad.2.plainText ∧ Laid before settings settings'

/-- Members are laid over settings up to the first that cannot be read. -/
theorem ends_forM_put (members : List (String × Toml)) (settings : Settings) :
    Ends (members.forM fun m => put m.1 m.2.plainText) settings
      (fun _ settings' => (∀ m ∈ members, Usable m) ∧ Laid members settings settings')
      (Stopped members settings) := by
  have hloop := ends_forM (f := fun m : String × Toml => put m.1 m.2.plainText)
    (fun done rest settings' => members = done ++ rest ∧ (∀ m ∈ done, Usable m) ∧
      Laid done settings settings')
    (Stopped members settings) ?_ members (s := settings) ⟨rfl, by simp, fun setting => rfl⟩
  · exact hloop.mono (fun _ _ h => h.2) fun _ _ h => h
  · rintro done m rest settings' ⟨hmembers, husable, hlaid⟩
    refine (ends_put hlaid).mono ?_ ?_
    · rintro - settings'' ⟨hm, hlaid'⟩
      refine ⟨by simpa using hmembers, fun m' hm' => ?_, hlaid'⟩
      rcases List.mem_append.1 hm' with hdone | hlast
      · exact husable m' hdone
      · exact List.mem_singleton.1 hlast ▸ hm
    · rintro fault settings'' ⟨hm, hfault, rfl⟩
      exact ⟨done, m, rest, hmembers, husable, hm, hfault, hlaid⟩

/-! ## Files -/

/-- Sorting leaves the members as they are, in another order. -/
theorem perm_sortedByKey (members : List (String × Toml)) :
    (sortedByKey members).Perm members :=
  List.mergeSort_perm _ _

/-- Sorted members are in the order of their keys. -/
theorem pairwise_sortedByKey (members : List (String × Toml)) :
    (sortedByKey members).Pairwise fun a b => a.1 ≤ b.1 := by
  have hsorted := @List.pairwise_mergeSort (String × Toml) (fun a b => a.1 ≤ b.1)
    (fun a b c hab hbc => decide_eq_true
      (String.le_trans (of_decide_eq_true hab) (of_decide_eq_true hbc)))
    (fun a b => by simpa using String.le_total a.1 b.1) members
  exact hsorted.imp of_decide_eq_true

/-- Merging a file lays the members of its text over the settings. -/
theorem mergeFile_eq {read : ReadFile} (hread : read path = .ok text)
    (hparse : Toml.parse? text = some members) : mergeFile read path = merge path members := by
  unfold mergeFile
  simp only [hread, hparse]

/-- A file is laid over settings if and only if all of its members can be read. Otherwise the fault
is the first one in the order of their keys, and of the settings those have changed that the members
before it name; they show what these members say. -/
theorem mergeFile_stops {read : ReadFile} (hread : read path = .ok text)
    (hparse : Toml.parse? text = some members) (settings : Settings) :
    Ends (mergeFile read path) settings
      (fun _ _ => ∀ m ∈ members, Usable m)
      (fun fault settings' => ∃ before bad after, members.Perm (before ++ bad :: after) ∧
        (before ++ bad :: after).Pairwise (fun a b => a.1 ≤ b.1) ∧
        (∀ m ∈ before, Usable m) ∧ ¬ Usable bad ∧
        fault = .invalidValue bad.1 bad.2.plainText ∧
        (∀ setting, (∀ m ∈ before, Setting.ofKey? m.1 ≠ some setting) →
          settings'.textOf setting = settings.textOf setting) ∧
        (∀ setting, setting ≠ .importMap →
          settings'.textOf setting = (said? before setting).getD (settings.textOf setting)) ∧
        ((∀ m ∈ before, Setting.ofKey? m.1 = none) → settings' = settings)) := by
  rw [mergeFile_eq hread hparse]
  unfold merge
  rw [ends_bind]
  refine (ends_forM_put (sortedByKey members) settings).mono ?_ ?_
  · rintro - settings' ⟨husable, -⟩
    have hall : ∀ m ∈ members, Usable m :=
      fun m hm => husable m ((perm_sortedByKey members).mem_iff.2 hm)
    split
    · exact hall
    · exact hall
  · rintro fault settings' ⟨before, bad, after, hsorted, husable, hbad, hfault, hlaid⟩
    refine ⟨before, bad, after, hsorted ▸ (perm_sortedByKey members).symm,
      hsorted ▸ pairwise_sortedByKey members, husable, hbad, hfault, fun setting hnone => ?_,
      fun setting _ => hlaid setting, hlaid.eq⟩
    rw [hlaid setting, said?_eq_none hnone]
    rfl

/-- The one file that there is, with what there is in it. Nothing here is settled by looking for it
anew, so that it stays sealed. -/
@[irreducible]
def soleFile (path text : String) : ReadFile := fun other =>
  if other = path then .ok text else .error .missing

/-- The one file is read as its text. -/
theorem read_soleFile (path text : String) : soleFile path text path = .ok text := by
  unfold soleFile
  exact if_pos rfl

/-- A file whose second member cannot be read. -/
def soonText : String :=
  "allow_remote = true\ntimeout = \"soon\"\n"

/-- The members of the file. -/
def soonMembers : List (String × Toml) :=
  [("allow_remote", .boolean true), ("timeout", .string "soon")]

/-- The members that are read from the file. -/
theorem parse?_soonText : Toml.parse? soonText = some soonMembers := by
  cbv

/-- The members before the one that cannot be read change the settings. -/
theorem merge_soonMembers : merge "settings.toml" soonMembers standard =
    .error (.invalidValue "timeout" "soon") { standard with allowRemote := true } := by
  cbv

/-- The file stops at its second member, with the first one laid over the settings. -/
theorem mergeFile_soonText :
    mergeFile (soleFile "settings.toml" soonText) "settings.toml" standard =
      .error (.invalidValue "timeout" "soon") { standard with allowRemote := true } :=
  (congrFun (mergeFile_eq (read_soleFile _ _) parse?_soonText) standard).trans merge_soonMembers

/-- What stops the file is its timeout, and the setting before it is what the file says. -/
theorem mergeFile_stops_soon :
    soleFile "settings.toml" soonText "settings.toml" = .ok soonText ∧
    Toml.parse? soonText = some soonMembers ∧
    ∃ before bad after, soonMembers.Perm (before ++ bad :: after) ∧ ¬ Usable bad ∧
      .invalidValue "timeout" "soon" = SettingsFault.invalidValue bad.1 bad.2.plainText ∧
      some "true" = (said? before .allowRemote).getD (standard.textOf .allowRemote) := by
  obtain ⟨before, bad, after, hperm, -, -, hbad, hfault, -, hshown, -⟩ :=
    (mergeFile_stops (read_soleFile _ _) parse?_soonText standard).of_error mergeFile_soonText
  exact ⟨read_soleFile _ _, parse?_soonText, before, bad, after, hperm, hbad, hfault,
    hshown .allowRemote (by decide)⟩

/-- A file that cannot be laid over settings as a whole may have changed them all the same. -/
theorem exists_mergeFile_changed : ∃ (read : ReadFile) (path text : String)
    (members : List (String × Toml)) (fault : SettingsFault) (settings settings' : Settings),
    read path = .ok text ∧ Toml.parse? text = some members ∧
      mergeFile read path settings = .error fault settings' ∧ settings' ≠ settings :=
  ⟨_, _, _, _, _, _, _, read_soleFile _ _, parse?_soonText, mergeFile_soonText, by decide⟩

end Settings

end ModuleGraph
