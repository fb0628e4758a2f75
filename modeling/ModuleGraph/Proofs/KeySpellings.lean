import ModuleGraph.Proofs.SettingsFiles

/-!
# Spellings of keys

A key names the same setting whether hyphens or underscores stand in it, so that members that are
the same but for the spelling of their keys change settings alike (`Settings.ending_forM_put`), and
they do so in the same order (`Settings.named_sortedByKey_eq`). Only the path of an import map tells
the spellings apart: it starts from the directory of its file if the key is spelled with an
underscore (`Settings.mergeFile_respelled`).
-/

namespace ModuleGraph

namespace Setting

/-- The first letter of a setting's key. No two settings have the same. -/
def letter : Setting → Char
  | .importMap => 'i'
  | .maxConcurrentFetches => 'm'
  | .allowRemote => 'a'
  | .timeout => 't'
  | .logLevel => 'l'

/-- The letter of a setting starts its key. -/
theorem head?_key (setting : Setting) : setting.key.toList.head? = some setting.letter := by
  cases setting <;> decide

/-- The keys of settings are in the order of their letters. -/
theorem key_le_of_letter_le {a b : Setting} (h : a.letter ≤ b.letter) : a.key ≤ b.key := by
  revert h
  cases a <;> cases b <;> decide

/-- No two settings have the same key. -/
theorem key_injective : Function.Injective key := by
  intro a b h
  cases a <;> cases b <;> first | rfl | exact absurd h (by decide)

/-- The key of a setting is any of its spellings, normalized. -/
theorem key_eq_normalKey {key : String} {setting : Setting} (h : ofKey? key = some setting) :
    setting.key = normalKey key := by
  simpa using List.find?_some h

@[simp] theorem normalKey_normalKey (key : String) : normalKey (normalKey key) = normalKey key := by
  rw [normalKey, normalKey, String.map_map]
  congr 1
  funext c
  simp only [Function.comp]
  split <;> simp_all

@[simp] theorem ofKey?_normalKey (key : String) : ofKey? (normalKey key) = ofKey? key := by
  simp only [ofKey?, normalKey_normalKey]

@[simp] theorem ofKey?_key (setting : Setting) : ofKey? setting.key = some setting := by
  cases setting <;> decide +kernel

/-- A key begins as that of the setting which it names: what is spelled differently is not a
letter. -/
theorem head?_of_ofKey? {key : String} {setting : Setting} (h : ofKey? key = some setting) :
    key.toList.head? = some setting.letter := by
  have hhead := setting.head?_key
  rw [key_eq_normalKey h, normalKey, String.toList_map, List.head?_map] at hhead
  obtain ⟨c, hc, hletter⟩ := Option.map_eq_some_iff.1 hhead
  have hother : setting.letter ≠ '_' := by cases setting <;> decide
  split at hletter
  · exact absurd hletter.symm hother
  · exact hletter ▸ hc

/-- Keys of settings are in the same order however they are spelled. -/
theorem key_le_of_le {a b : String} {setting setting' : Setting} (h : a ≤ b)
    (ha : ofKey? a = some setting) (hb : ofKey? b = some setting') :
    setting.key ≤ setting'.key := by
  obtain ⟨as, has⟩ := List.head?_eq_some_iff.1 (head?_of_ofKey? ha)
  obtain ⟨bs, hbs⟩ := List.head?_eq_some_iff.1 (head?_of_ofKey? hb)
  rw [String.le_iff_toList_le, has, hbs] at h
  refine key_le_of_letter_le ?_
  rcases h.eq_or_lt with heq | hlt
  · exact (List.cons.inj heq).1.le
  · exact List.head_le_of_lt hlt

end Setting

/-- A fault whose key is spelled with underscores. -/
def SettingsFault.normal : SettingsFault → SettingsFault
  | .invalidValue key value => .invalidValue (Setting.normalKey key) value
  | fault => fault

namespace Settings

variable {settings settings' : Settings} {setting : Setting} {key text path : String}
  {members members' : List (String × Toml)}

/-- What a change of settings comes to, however the key of a fault is spelled. -/
def ending : EStateM.Result SettingsFault Settings Unit → EStateM.Result SettingsFault Settings Unit
  | .ok () settings => .ok () settings
  | .error fault settings => .error fault.normal settings

/-- A change comes to new settings just if it ends with them. -/
theorem ending_eq_ok {result : EStateM.Result SettingsFault Settings Unit} :
    ending result = .ok () settings ↔ result = .ok () settings := by
  cases result <;> simp [ending]

/-- The settings that the keys of members name, with the values of the members. -/
def named (members : List (String × Toml)) : List (Setting × Toml) :=
  members.filterMap fun m => (Setting.ofKey? m.1).map (·, m.2)

/-- Reads settings from values, one after the other. -/
def putAll (values : List (Setting × Toml)) : SettingsM Unit :=
  values.forM fun value => put value.1.key value.2.plainText

/-- Two members do not name one setting. -/
def Apart (a b : String × Toml) : Prop :=
  ∀ setting ∈ Setting.ofKey? a.1, setting ∉ Setting.ofKey? b.1

instance : DecidableRel Apart := fun a b =>
  inferInstanceAs (Decidable (∀ setting ∈ Setting.ofKey? a.1, setting ∉ Setting.ofKey? b.1))

instance : Std.Symm Apart :=
  ⟨fun _ _ h setting hb ha => h setting ha hb⟩

/-- No two members name one setting, be it in one spelling or in two. -/
def NamesOnce (members : List (String × Toml)) : Prop :=
  members.Pairwise Apart

instance : Decidable (NamesOnce members) :=
  inferInstanceAs (Decidable (List.Pairwise Apart members))

/-- The members are the same but for the spelling of their keys. -/
def Respelled (members members' : List (String × Toml)) : Prop :=
  (members.map (Prod.map Setting.normalKey id)).Perm
    (members'.map (Prod.map Setting.normalKey id))

/-! ## Settings that are named -/

/-- A named setting has a member whose key is one of its spellings. -/
theorem mem_named {m : Setting × Toml} :
    m ∈ named members ↔ ∃ m' ∈ members, Setting.ofKey? m'.1 = some m.1 ∧ m'.2 = m.2 := by
  simp only [named, List.mem_filterMap, Option.map_eq_some_iff, Prod.ext_iff]
  grind

/-- A member with the key of the import map, as it is spelled with an underscore, names it. -/
theorem exists_mem_named_importMap (h : members.any (·.1 == Setting.importMap.key) = true) :
    ∃ value, (Setting.importMap, value) ∈ named members := by
  obtain ⟨m, hm, hkey⟩ := List.any_eq_true.1 h
  exact ⟨m.2, mem_named.2 ⟨m, hm, by simp [eq_of_beq hkey], rfl⟩⟩

/-- Members that name one setting are the same, where settings are named once. -/
theorem NamesOnce.eq {m m' : String × Toml} (h : NamesOnce members) (hm : m ∈ members)
    (hm' : m' ∈ members) (hkey : Setting.ofKey? m.1 = some setting)
    (hkey' : Setting.ofKey? m'.1 = some setting) : m = m' := by
  by_contra hne
  exact h.forall hm hm' hne setting hkey hkey'

/-- Members name the same settings when their keys are normalized. -/
theorem named_map_normalKey (members : List (String × Toml)) :
    named (members.map (Prod.map Setting.normalKey id)) = named members := by
  simp [named, List.filterMap_map]

/-- Respelled members name the same settings, perhaps in another order. -/
theorem Respelled.perm_named (h : Respelled members members') :
    (named members).Perm (named members') := by
  have hperm := h.filterMap fun m => (Setting.ofKey? m.1).map (·, m.2)
  exact (named_map_normalKey members) ▸ (named_map_normalKey members') ▸ hperm

/-- Sorted members name the same settings, perhaps in another order. -/
theorem perm_named_sortedByKey (members : List (String × Toml)) :
    (named (sortedByKey members)).Perm (named members) :=
  (perm_sortedByKey members).filterMap _

/-- Sorted members name settings in the order of their keys. -/
theorem pairwise_named_sortedByKey (members : List (String × Toml)) :
    (named (sortedByKey members)).Pairwise fun a b => a.1.key ≤ b.1.key := by
  refine List.pairwise_filterMap.2 ((pairwise_sortedByKey members).imp ?_)
  intro a b hle m hm m' hm'
  obtain ⟨setting, hsetting, rfl⟩ := Option.map_eq_some_iff.1 hm
  obtain ⟨setting', hsetting', rfl⟩ := Option.map_eq_some_iff.1 hm'
  exact Setting.key_le_of_le hle hsetting hsetting'

/-- Members that are the same but for the spelling of their keys are laid over settings in the same
order. -/
theorem named_sortedByKey_eq (hnames : NamesOnce members) (h : Respelled members members') :
    named (sortedByKey members) = named (sortedByKey members') := by
  refine List.Perm.eq_of_pairwise ?_ (pairwise_named_sortedByKey members)
    (pairwise_named_sortedByKey members') ((perm_named_sortedByKey members).trans
      (h.perm_named.trans (perm_named_sortedByKey members').symm))
  intro a b ha hb hab hba
  obtain ⟨m, hm, hkey, hvalue⟩ := mem_named.1 ((perm_named_sortedByKey members).mem_iff.1 ha)
  obtain ⟨m', hm', hkey', hvalue'⟩ := mem_named.1
    (h.perm_named.mem_iff.2 ((perm_named_sortedByKey members').mem_iff.1 hb))
  have hsetting : a.1 = b.1 := Setting.key_injective (String.le_antisymm hab hba)
  have hsame : m = m' := hnames.eq hm hm' hkey (hsetting ▸ hkey')
  exact Prod.ext hsetting (by rw [← hvalue, ← hvalue', hsame])

/-! ## Laying members over settings -/

/-- A key that names no setting changes nothing. -/
theorem put_of_ofKey?_eq_none (h : Setting.ofKey? key = none) :
    put key text settings = .ok () settings := by
  simp only [put, set, h]

/-- A setting is read alike under every spelling of its key. -/
theorem ending_put (h : Setting.ofKey? key = some setting) :
    ending (put key text settings) = put setting.key text settings := by
  simp only [put, set, h, Setting.ofKey?_key]
  cases hassign : settings.assign? setting text with
  | none => simp only [ending, SettingsFault.normal, Setting.key_eq_normalKey h]
  | some settings' => rfl

/-- A loop over members takes the first of them and goes on unless it fails. -/
theorem forM_cons_apply {α : Type} (f : α → SettingsM Unit) (a : α) (as : List α)
    (settings : Settings) : (a :: as).forM f settings =
      match f a settings with
      | .ok _ settings' => as.forM f settings'
      | .error fault settings' => .error fault settings' := by
  show (f a >>= fun _ => as.forM f) settings = _
  simp only [bind, EStateM.bind]
  cases f a settings <;> rfl

/-- Members change settings as the settings that they name say, whatever the spelling. -/
theorem ending_forM_put (members : List (String × Toml)) (settings : Settings) :
    ending (members.forM (fun m => put m.1 m.2.plainText) settings) =
      putAll (named members) settings := by
  induction members generalizing settings with
  | nil => rfl
  | cons m members ih =>
      cases hkey : Setting.ofKey? m.1 with
      | none =>
          have hnamed : named (m :: members) = named members := by simp [named, hkey]
          rw [forM_cons_apply, put_of_ofKey?_eq_none hkey, hnamed]
          exact ih settings
      | some setting =>
          have hnamed : named (m :: members) = (setting, m.2) :: named members := by
            simp [named, hkey]
          rw [hnamed, putAll, forM_cons_apply, forM_cons_apply, ← ending_put hkey]
          cases put m.1 m.2.plainText settings with
          | ok _ settings' => exact ih settings'
          | error fault settings' => rfl

/-- The path of an import map as a file at a path sees it. -/
def seenFrom (path map : String) : String :=
  match FilePath.parent? path with
  | some directory => FilePath.join directory map
  | none => map

/-- Rebasing changes the path of the import map to what the file sees, and nothing else. -/
theorem rebase_eq (path : String) (settings : Settings) :
    rebase path settings =
      { settings with importMap := settings.importMap.map (seenFrom path) } := by
  unfold rebase seenFrom
  cases settings with
  | mk importMap => cases importMap <;> cases FilePath.parent? path <;> rfl

/-- Merging lays sorted members over the settings, and rebases the path if the key with the
underscore is there. -/
theorem merge_apply (path : String) (members : List (String × Toml)) (settings : Settings) :
    merge path members settings =
      match (sortedByKey members).forM (fun m => put m.1 m.2.plainText) settings with
      | .ok _ settings' => .ok () (if members.any (·.1 == Setting.importMap.key) then
          rebase path settings' else settings')
      | .error fault settings' => .error fault settings' := by
  unfold merge
  simp only [bind, EStateM.bind]
  cases (sortedByKey members).forM (fun m => put m.1 m.2.plainText) settings with
  | ok _ settings' => cases members.any (·.1 == Setting.importMap.key) <;> rfl
  | error fault settings' => rfl

/-- What a document comes to is what the settings come to that it names, with the path of the import
map changed if its key has an underscore. -/
theorem ending_merge (path : String) (members : List (String × Toml)) (settings : Settings) :
    ending (merge path members settings) =
      match putAll (named (sortedByKey members)) settings with
      | .ok _ settings' => .ok () (if members.any (·.1 == Setting.importMap.key) then
          rebase path settings' else settings')
      | .error fault settings' => .error fault settings' := by
  rw [merge_apply, ← ending_forM_put]
  cases (sortedByKey members).forM (fun m => put m.1 m.2.plainText) settings <;> rfl

/-- A setting that one member names is what the member says. -/
theorem textOf_of_forM_put {m : String × Toml} (hnames : NamesOnce members) (hm : m ∈ members)
    (hkey : Setting.ofKey? m.1 = some setting)
    (h : (sortedByKey members).forM (fun m => put m.1 m.2.plainText) settings = .ok () settings') :
    setting.value? m.2.plainText = some (settings'.textOf setting) := by
  obtain ⟨husable, hlaid⟩ := (ends_forM_put (sortedByKey members) settings).of_ok h
  have hmem : ∀ {m}, m ∈ sortedByKey members ↔ m ∈ members := (perm_sortedByKey members).mem_iff
  have hsaid : said? (sortedByKey members) setting = setting.value? m.2.plainText := by
    have hmem' : m ∈ (sortedByKey members).filter fun m => Setting.ofKey? m.1 = some setting := by
      simp [hmem, hm, hkey]
    obtain ⟨last, hlast⟩ := Option.isSome_iff_exists.1
      (List.getLast?_isSome.2 (List.ne_nil_of_mem hmem'))
    have hlast' := List.mem_filter.1 (List.mem_of_getLast? hlast)
    rw [said?, hlast, hnames.eq hm (hmem.1 hlast'.1) hkey (by simpa using hlast'.2)]
    rfl
  obtain ⟨value, hvalue⟩ := Option.ne_none_iff_exists'.1 (husable m (hmem.2 hm) setting hkey)
  rw [hlaid setting, hsaid, hvalue]
  rfl

/-- An import map whose path is the same wherever it starts stays as it is. -/
theorem rebase_eq_self {value : Toml} (hnames : NamesOnce members)
    (hnowhere : ∀ m ∈ members, Setting.ofKey? m.1 = some .importMap →
      (path? m.2.plainText).map (seenFrom path) = path? m.2.plainText)
    (hvalue : (Setting.importMap, value) ∈ named members)
    (h : (sortedByKey members).forM (fun m => put m.1 m.2.plainText) settings = .ok () settings') :
    rebase path settings' = settings' := by
  obtain ⟨m, hm, hkey, -⟩ := mem_named.1 hvalue
  have hpath : path? m.2.plainText = settings'.importMap :=
    Option.some.inj (textOf_of_forM_put hnames hm hkey h)
  rw [rebase_eq, ← hpath, hnowhere m hm hkey, hpath]

/-- The path of the import map that a member sets starts from the directory of the file if the
member's key is spelled with an underscore, and stays as it is if it has a hyphen. -/
theorem importMap_of_merge {m : String × Toml} (hnames : NamesOnce members) (hm : m ∈ members)
    (hkey : Setting.ofKey? m.1 = some .importMap)
    (h : merge path members settings = .ok () settings') :
    settings'.importMap = if m.1 = Setting.importMap.key then
      (path? m.2.plainText).map (seenFrom path) else path? m.2.plainText := by
  rw [merge_apply] at h
  split at h
  · next laid hlaid =>
      have hmap : laid.importMap = path? m.2.plainText :=
        (Option.some.inj (textOf_of_forM_put hnames hm hkey hlaid)).symm
      have hany : members.any (·.1 == Setting.importMap.key) = true ↔
          m.1 = Setting.importMap.key := by
        simp only [List.any_eq_true, beq_iff_eq]
        refine ⟨fun ⟨m', hm', hkey'⟩ => ?_, fun hkey' => ⟨m, hm, hkey'⟩⟩
        have hnamed : Setting.ofKey? m'.1 = some .importMap := by rw [hkey', Setting.ofKey?_key]
        exact hnames.eq hm hm' hkey hnamed ▸ hkey'
      cases h
      simp only [hany]
      split
      · rw [rebase_eq, hmap]
      · exact hmap
  · cases h

/-- Files whose members are the same but for the spelling of their keys come to the same, if both or
neither spell the key of the import map with an underscore or if the import map's path does not
depend on where it starts. It starts from the directory of the file if there is an underscore. -/
theorem mergeFile_respelled {read read' : ReadFile} {text' : String}
    (hread : read path = .ok text) (hparse : Toml.parse? text = some members)
    (hread' : read' path = .ok text') (hparse' : Toml.parse? text' = some members')
    (hnames : NamesOnce members) (hrespelled : Respelled members members')
    (hmap : ((∃ m ∈ members, m.1 = Setting.importMap.key) ↔
        ∃ m ∈ members', m.1 = Setting.importMap.key) ∨
      ∀ m ∈ members, Setting.ofKey? m.1 = some .importMap →
        (path? m.2.plainText).map (seenFrom path) = path? m.2.plainText)
    (settings : Settings) :
    ending (mergeFile read path settings) = ending (mergeFile read' path settings) ∧
      ∀ settings', mergeFile read path settings = .ok () settings' →
        ∀ m ∈ members, Setting.ofKey? m.1 = some .importMap →
          settings'.importMap = if m.1 = Setting.importMap.key then
            (path? m.2.plainText).map (seenFrom path) else path? m.2.plainText := by
  rw [mergeFile_eq hread hparse, mergeFile_eq hread' hparse']
  refine ⟨?_, fun settings' h m hm hkey => importMap_of_merge hnames hm hkey h⟩
  rw [ending_merge, ending_merge, named_sortedByKey_eq hnames hrespelled]
  cases hrun : putAll (named (sortedByKey members')) settings with
  | error fault laid => rfl
  | ok _ laid =>
      rcases hmap with hsame | hnowhere
      · have hany : members.any (·.1 == Setting.importMap.key) =
            members'.any (·.1 == Setting.importMap.key) := by
          rw [Bool.eq_iff_iff]
          simpa only [List.any_eq_true, beq_iff_eq] using hsame
        simp only [hany]
      rw [← named_sortedByKey_eq hnames hrespelled, ← ending_forM_put, ending_eq_ok] at hrun
      -- one of the two may start the path elsewhere, but this makes no difference
      have hleft : members.any (·.1 == Setting.importMap.key) = true → rebase path laid = laid := by
        intro h
        obtain ⟨value, hvalue⟩ := exists_mem_named_importMap h
        exact rebase_eq_self hnames hnowhere hvalue hrun
      have hright : members'.any (·.1 == Setting.importMap.key) = true →
          rebase path laid = laid := by
        intro h
        obtain ⟨value, hvalue⟩ := exists_mem_named_importMap h
        exact rebase_eq_self hnames hnowhere (hrespelled.perm_named.mem_iff.2 hvalue) hrun
      simp only [ite_eq_right_iff.2 hleft, ite_eq_right_iff.2 hright]

/-- A document with underscores in its keys. -/
def underscoreText : String :=
  "import_map = \"m.json\"\nlog_level = \"info\"\n"

/-- Its members. -/
def underscoreMembers : List (String × Toml) :=
  [("import_map", .string "m.json"), ("log_level", .string "info")]

/-- The document with a hyphen in the key of the import map. -/
def hyphenText : String :=
  "import-map = \"m.json\"\nlog_level = \"info\"\n"

/-- Its members. -/
def hyphenMembers : List (String × Toml) :=
  [("import-map", .string "m.json"), ("log_level", .string "info")]

/-- The members that are read from the document. -/
theorem parse?_underscoreText : Toml.parse? underscoreText = some underscoreMembers := by
  cbv

/-- The members that are read from the document with the hyphen. -/
theorem parse?_hyphenText : Toml.parse? hyphenText = some hyphenMembers := by
  cbv

/-- A path is seen from the directory of its file. -/
theorem seenFrom_sub : seenFrom "/W/sub/settings.toml" "m.json" = "/W/sub/m.json" := by
  have hparent : FilePath.parent? "/W/sub/settings.toml" = some "/W/sub" := by decide +kernel
  rw [seenFrom, hparent]
  cbv

/-- With an underscore the path starts from the directory of the file. -/
theorem merge_underscoreMembers : merge "/W/sub/settings.toml" underscoreMembers standard =
    .ok () { standard with importMap := some "/W/sub/m.json", logLevel := "info" } := by
  have hforM : (sortedByKey underscoreMembers).forM (fun m => put m.1 m.2.plainText) standard =
      .ok () { standard with importMap := some "m.json", logLevel := "info" } := by cbv
  have hany : underscoreMembers.any (·.1 == Setting.importMap.key) = true := by cbv
  rw [merge_apply, hforM]
  simp only [hany, if_true, rebase_eq, Option.map_some, seenFrom_sub]

/-- With a hyphen the path stays as it is written. -/
theorem merge_hyphenMembers : merge "/W/sub/settings.toml" hyphenMembers standard =
    .ok () { standard with importMap := some "m.json", logLevel := "info" } := by
  cbv

/-- The two documents differ in the spelling of one key. -/
theorem respelled_hyphenMembers : Respelled underscoreMembers hyphenMembers := by
  unfold Respelled
  have h : underscoreMembers.map (Prod.map Setting.normalKey id) =
      hyphenMembers.map (Prod.map Setting.normalKey id) := by cbv
  exact .of_eq h

/-- The document names each setting once. -/
theorem namesOnce_underscoreMembers : NamesOnce underscoreMembers := by
  decide +kernel

/-- There is no difference for a file that is named without a directory. -/
theorem mergeFile_respelled_here :
    soleFile "settings.toml" underscoreText "settings.toml" = .ok underscoreText ∧
    Toml.parse? underscoreText = some underscoreMembers ∧
    soleFile "settings.toml" hyphenText "settings.toml" = .ok hyphenText ∧
    Toml.parse? hyphenText = some hyphenMembers ∧
    NamesOnce underscoreMembers ∧ Respelled underscoreMembers hyphenMembers ∧
    ending (mergeFile (soleFile "settings.toml" underscoreText) "settings.toml" standard) =
      ending (mergeFile (soleFile "settings.toml" hyphenText) "settings.toml" standard) := by
  have hnowhere : ∀ m ∈ underscoreMembers, Setting.ofKey? m.1 = some .importMap →
      (path? m.2.plainText).map (seenFrom "settings.toml") = path? m.2.plainText := by
    decide +kernel
  have hsame := mergeFile_respelled (read_soleFile "settings.toml" _) parse?_underscoreText
    (read_soleFile _ _) parse?_hyphenText namesOnce_underscoreMembers respelled_hyphenMembers
    (.inr hnowhere) standard
  exact ⟨read_soleFile _ _, parse?_underscoreText, read_soleFile _ _, parse?_hyphenText,
    namesOnce_underscoreMembers, respelled_hyphenMembers, hsame.1⟩

/-- The path of an import map is not taken from the directory of its file if there is a hyphen in
the key. -/
theorem exists_mergeFile_respelled_ne : ∃ (read read' : ReadFile) (path text text' : String)
    (members members' : List (String × Toml)) (settings : Settings),
    read path = .ok text ∧ Toml.parse? text = some members ∧
      read' path = .ok text' ∧ Toml.parse? text' = some members' ∧
      NamesOnce members ∧ Respelled members members' ∧
      ending (mergeFile read path settings) ≠ ending (mergeFile read' path settings) := by
  refine ⟨soleFile "/W/sub/settings.toml" underscoreText,
    soleFile "/W/sub/settings.toml" hyphenText, _, _, _, _, _, standard, read_soleFile _ _,
    parse?_underscoreText, read_soleFile _ _, parse?_hyphenText, namesOnce_underscoreMembers,
    respelled_hyphenMembers, ?_⟩
  rw [mergeFile_eq (read_soleFile _ _) parse?_underscoreText, merge_underscoreMembers,
    mergeFile_eq (read_soleFile _ _) parse?_hyphenText, merge_hyphenMembers]
  simp [ending]

end Settings

end ModuleGraph
