import Abyss.Cli.ClaudeCode.Configurator

/-! What runs of the configurator keep of the user's setup. -/
namespace Abyss.Cli.ClaudeCode
open Abyss.Text Abyss.System
namespace ClaudeCodeConfigurator
variable {configurator : ClaudeCodeConfigurator} {disk after : Disk} {run : Run}

section Members

theorem member_setMember (members : Members) (key other : Str) (value : Json) :
    member (setMember members key value) other = if other = key then some value else member members other := by
  induction members with
  | nil =>
    unfold setMember member
    by_cases h : other = key
    · simp [h]
    · simp [h, Ne.symm h]
  | cons m members ih =>
    rw [setMember]
    split
    · next hm =>
      by_cases h : other = key
      · simp [member, h]
      · simp [member, hm, h, Ne.symm h]
    · next hm =>
      by_cases hother : m.1 = other
      · have hne : ¬ other = key := fun h => hm (hother.trans h)
        simp [member, hother, hne]
      · have hstep : ∀ rest, member (m :: rest) other = member rest other := by
          intro rest
          simp [member, hother]
        rw [hstep, hstep, ih]

/-- Inserting a value that is there changes nothing. -/
theorem setMember_eq_self {members : Members} {key : Str} {value : Json} (h : member members key = some value) :
    setMember members key value = members := by
  induction members with
  | nil => cases h
  | cons m members ih =>
    rw [setMember]
    split
    · next hm =>
      have hvalue : m.2 = value := by simpa [member, hm] using h
      rw [← hm, ← hvalue]
    · next hm =>
      have hrest : member members key = some value := by simpa [member, hm] using h
      rw [ih hrest]

theorem member_singleton (key : Str) (value : Json) : member [(key, value)] key = some value := by
  simp [member]

theorem member_previousEnvironment (environment : Members) :
    member (previousEnvironment environment) nodeExtraCaCerts = member environment nodeExtraCaCerts := by
  unfold previousEnvironment
  split
  · next h => exact h.symm
  · next value h => rw [member_singleton, h]

end Members

section Original

/-- The settings of a disk, where they are an object. -/
def settingsOf (disk : Disk) : Members :=
  match disk.settings with
  | .contents (.obj members) => members
  | _ => []

/-- The environment that settings hold. -/
def environmentOf (settings : Members) : Members :=
  match member settings envKey with
  | some (.obj environment) => environment
  | _ => []

/-- What `NODE_EXTRA_CA_CERTS` is set to. -/
def previousValue (disk : Disk) : Option Json := member (environmentOf (settingsOf disk)) nodeExtraCaCerts

/-- The text of the bundle that the settings name. -/
def previousContents (configurator : ClaudeCodeConfigurator) (disk : Disk) : Str :=
  match previousPath ((previousValue disk).bind Json.asStr) with
  | none => []
  | some path => (configurator.fileAt disk path).getD []

/-- The root file is one certificate, and the bundle has it once if it contains its text, and otherwise not at all. -/
structure Fit (configurator : ClaudeCodeConfigurator) (disk : Disk) (root : Str) : Prop where
  block : Pem.IsBlock (rootBlock root)
  once : (certificates (configurator.previousContents disk)).count (rootBlock root) =
    if containsCertificate (configurator.previousContents disk) root then 1 else 0

end Original

section Steps

theorem readSettings_ok {faults : Faults} {settings : Members} (h : configurator.readSettings faults disk = .ok settings) :
    settings = settingsOf disk := by
  unfold readSettings at h
  split at h
  · cases h
  · unfold settingsOf
    split at h
    · next hsettings => cases h; rw [hsettings]
    · next hsettings => cases h; rw [hsettings]
    · cases h
    · next members hsettings => cases h; rw [hsettings]
    · cases h

theorem environmentObject_ok {settings environment : Members} (h : configurator.environmentObject settings = .ok environment) :
    environment = environmentOf settings := by
  unfold environmentObject at h
  unfold environmentOf
  split at h
  · next hmember => cases h; rw [hmember]
  · next members hmember => cases h; rw [hmember]
  · cases h

theorem readPrevious_ok {faults : Faults} {path contents : Str} (h : configurator.readPrevious faults disk path = .ok contents) :
    contents = (configurator.fileAt disk path).getD [] := by
  unfold readPrevious at h
  split at h
  · next hmissing =>
    cases h
    rw [fileAt, if_pos hmissing.1, hmissing.2]
    rfl
  · split at h
    · cases h
    · split at h
      · next hfile => cases h; rw [hfile]; rfl
      · cases h

/-- What a run writes, from what it reads. -/
structure Planned (configurator : ClaudeCodeConfigurator) (disk : Disk) (plan : Plan) : Prop where
  previous : plan.previousEnvironment = previousEnvironment (environmentOf (settingsOf disk))
  settings : plan.settings = setMember (settingsOf disk) envKey
    (.obj (setMember (environmentOf (settingsOf disk)) nodeExtraCaCerts (.str configurator.managedBundlePath)))
  bundle : ∃ root, disk.rootCertificate = some root ∧
    (previousPath ((previousValue disk).bind Json.asStr) = none ∧ plan.bundle = normalizedPem root ∨
      containsCertificate (configurator.previousContents disk) root = true ∧
        plan.bundle = normalizedPem (configurator.previousContents disk) ∨
      containsCertificate (configurator.previousContents disk) root = false ∧
        plan.bundle = normalizedPem (configurator.previousContents disk) ++ '\n' :: normalizedPem root)

theorem planned {faults : Faults} {plan : Plan} (h : configurator.plan faults disk = .ok plan) :
    Planned configurator disk plan := by
  unfold ClaudeCodeConfigurator.plan at h
  cases hroot : configurator.readRootCertificate faults disk with
  | error error => simp [hroot, bind, Except.bind] at h
  | ok root =>
    cases hsettings : configurator.readSettings faults disk with
    | error error => simp [hroot, hsettings, bind, Except.bind] at h
    | ok settings =>
      cases henvironment : configurator.environmentObject settings with
      | error error => simp [hroot, hsettings, henvironment, bind, Except.bind] at h
      | ok environment =>
        simp only [hroot, hsettings, henvironment, bind, Except.bind, pure, Except.pure] at h
        obtain rfl := readSettings_ok hsettings
        obtain rfl := environmentObject_ok henvironment
        rw [member_previousEnvironment, ← previousValue] at h
        split at h
        · cases h
        · next bundle hbundle =>
          cases h
          refine ⟨rfl, rfl, root, ?_, ?_⟩
          · unfold readRootCertificate at hroot
            split at hroot
            · cases hroot
            · split at hroot
              · next hfile => cases hroot; exact hfile
              · cases hroot
          · unfold mergedBundle at hbundle
            split at hbundle
            · next hpath =>
              cases hbundle
              exact .inl ⟨hpath, rfl⟩
            · next path hpath =>
              split at hbundle
              · cases hbundle
              · split at hbundle
                · cases hbundle
                · next contents hcontents =>
                  have hprevious : configurator.previousContents disk = contents := by
                    rw [readPrevious_ok hcontents, previousContents]
                    have hpath : previousPath ((previousValue disk).bind Json.asStr) = some path := hpath
                    rw [hpath]
                  rw [hprevious]
                  split at hbundle
                  · next hcontains =>
                    cases hbundle
                    exact .inr (.inl ⟨hcontains, rfl⟩)
                  · next hcontains =>
                    cases hbundle
                    exact .inr (.inr ⟨by simpa using hcontains, rfl⟩)

theorem writeTextAtomic_cases (fault : Option WriteFault) (fileName : Str) (pid : Nat) (store : Disk → Disk) (disk : Disk) :
    (∃ error, configurator.writeTextAtomic fault fileName pid store disk = (.error error, disk)) ∨
      configurator.writeTextAtomic fault fileName pid store disk = (.ok (), store disk) := by
  cases fault with
  | none => exact .inr rfl
  | some fault => cases fault <;> exact .inl ⟨_, rfl⟩

theorem backupSettings_cases (run : Run) (disk : Disk) :
    (∃ error, configurator.backupSettings run disk = (.error error, disk)) ∨
      ∃ path backups, configurator.backupSettings run disk = (.ok path, { disk with backups }) := by
  unfold backupSettings
  split
  · exact .inr ⟨none, disk.backups, rfl⟩
  · split
    · exact .inl ⟨_, rfl⟩
    · exact .inr ⟨_, _, rfl⟩

/-- A run stops before it has written anything, or behind the bundle, or behind the settings, or writes all three files. -/
theorem configure_cases (run : Run) (disk : Disk) :
    (∃ error, configurator.configure run disk = (.error error, disk)) ∨
    ∃ plan, configurator.plan run.faults disk = .ok plan ∧ ∃ backups,
      (∃ error, configurator.configure run disk =
        (.error error, { disk with managedBundle := some plan.bundle, backups })) ∨
      (∃ error, configurator.configure run disk =
        (.error error, { disk with managedBundle := some plan.bundle, backups, settings := .contents (.obj plan.settings) })) ∨
      ∃ backupPath, configurator.configure run disk =
        (.ok (), { disk with
          managedBundle := some plan.bundle, backups, settings := .contents (.obj plan.settings)
          state := some ⟨run.configuredAt, configurator.settingsPath, configurator.managedBundlePath,
            plan.previousEnvironment, backupPath⟩ }) := by
  unfold configure
  cases hplan : configurator.plan run.faults disk with
  | error error =>
    have hread : configurator.readPlan run.faults disk = (.error error, disk) := by rw [readPlan, hplan]
    exact .inl ⟨error, Fallible.bind_of_error hread⟩
  | ok plan =>
    have hread : configurator.readPlan run.faults disk = (.ok plan, disk) := by rw [readPlan, hplan]
    rw [Fallible.bind_of_ok hread]
    cases hdirectory : run.faults.createDirectory with
    | true =>
      have hcreate : ∃ error, configurator.createClaudeDirectory run.faults disk = (.error error, disk) := by
        rw [createClaudeDirectory, hdirectory]
        exact ⟨_, rfl⟩
      obtain ⟨error, hcreate⟩ := hcreate
      exact .inl ⟨error, Fallible.bind_of_error hcreate⟩
    | false =>
      have hcreate : configurator.createClaudeDirectory run.faults disk = (.ok (), disk) := by
        rw [createClaudeDirectory, hdirectory]
        rfl
      rw [Fallible.bind_of_ok hcreate]
      rcases configurator.writeTextAtomic_cases run.faults.writeBundle "abyss-ca-bundle.pem".toList run.pid
        (fun disk => { disk with managedBundle := some plan.bundle }) disk with ⟨error, hbundle⟩ | hbundle
      · exact .inl ⟨error, Fallible.bind_of_error hbundle⟩
      · rw [Fallible.bind_of_ok hbundle]
        refine .inr ⟨plan, rfl, ?_⟩
        rcases configurator.backupSettings_cases run { disk with managedBundle := some plan.bundle } with
          ⟨error, hbackup⟩ | ⟨path, backups, hbackup⟩
        · exact ⟨disk.backups, .inl ⟨error, Fallible.bind_of_error hbackup⟩⟩
        · rw [Fallible.bind_of_ok hbackup]
          refine ⟨backups, ?_⟩
          rcases configurator.writeTextAtomic_cases run.faults.writeSettings "settings.json".toList run.pid
            (fun disk => { disk with settings := .contents (.obj plan.settings) })
            { disk with managedBundle := some plan.bundle, backups } with ⟨error, hsettings⟩ | hsettings
          · exact .inl ⟨error, Fallible.bind_of_error hsettings⟩
          · rw [Fallible.bind_of_ok hsettings]
            rcases configurator.writeTextAtomic_cases run.faults.writeState "abyss-ca-state.json".toList run.pid
              (fun disk => { disk with
                state := some ⟨run.configuredAt, configurator.settingsPath, configurator.managedBundlePath,
                  plan.previousEnvironment, path⟩ })
              { disk with managedBundle := some plan.bundle, backups, settings := .contents (.obj plan.settings) } with
              ⟨error, hstate⟩ | hstate
            · exact .inr (.inl ⟨error, hstate⟩)
            · exact .inr (.inr ⟨path, hstate⟩)

end Steps

section Managed
variable {original : Disk} {root : Str}

theorem managedBundlePath_ends (configurator : ClaudeCodeConfigurator) :
    ∃ middle, configurator.managedBundlePath = '/' :: middle ++ ['m'] := by
  have hhome : ∃ home, configurator.home = '/' :: home := by
    have habsolute := configurator.absolute
    cases hhome : configurator.home with
    | nil =>
      rw [hhome] at habsolute
      cases habsolute
    | cons c home =>
      rw [hhome] at habsolute
      have hc : c = '/' := by simpa [isAbsolute] using habsolute
      exact ⟨home, by rw [hc]⟩
  obtain ⟨home, hhome⟩ := hhome
  have hjoin : ∀ (directory name : Str), (∃ rest, directory = '/' :: rest) →
      ∃ rest, joinPath directory name = '/' :: (rest ++ name) := by
    rintro directory name ⟨rest, rfl⟩
    unfold joinPath
    split
    · exact ⟨rest, rfl⟩
    · exact ⟨rest ++ ['/'], by simp⟩
  obtain ⟨directory, hdirectory⟩ := hjoin configurator.home ".claude".toList ⟨home, hhome⟩
  obtain ⟨path, hpath⟩ := hjoin configurator.claudeDirectory "abyss-ca-bundle.pem".toList ⟨_, hdirectory⟩
  exact ⟨path ++ "abyss-ca-bundle.pe".toList, by rw [managedBundlePath, hpath]; simp⟩

/-- The path of the managed bundle is read back as it is. -/
theorem previousPath_managedBundlePath (configurator : ClaudeCodeConfigurator) :
    previousPath (some configurator.managedBundlePath) = some configurator.managedBundlePath := by
  obtain ⟨middle, hpath⟩ := configurator.managedBundlePath_ends
  have htrim : trim configurator.managedBundlePath = configurator.managedBundlePath := by
    refine trim_eq_self ?_ ?_
    · rw [hpath]
      rfl
    · rw [hpath, List.getLast?_concat]
      rfl
  have hne : configurator.managedBundlePath ≠ [] := by
    rw [hpath]
    exact List.cons_ne_nil _ _
  rw [previousPath, Option.map_some, htrim, Option.filter_some, if_pos (decide_eq_true hne)]

/-- What holds behind every run: the settings are the original ones but for the name of the bundle, and the bundle has the
original certificates and the root. -/
structure Managed (configurator : ClaudeCodeConfigurator) (original : Disk) (root : Str) (disk : Disk) : Prop where
  settings : ∃ members environment, disk.settings = .contents (.obj members) ∧
    member members envKey = some (.obj environment) ∧
    member environment nodeExtraCaCerts = some (.str configurator.managedBundlePath) ∧
    (∀ key, key ≠ envKey → member members key = member (settingsOf original) key) ∧
    ∀ name, name ≠ nodeExtraCaCerts → member environment name = member (environmentOf (settingsOf original)) name
  bundle : ∃ content, disk.managedBundle = some content ∧
    (certificates (configurator.previousContents original)).Sublist (certificates content) ∧
    (certificates content).count (rootBlock root) = 1 ∧ containsCertificate content root = true

/-- The merged bundle has what the previous one has, and the root once. -/
theorem bundle_certificates {plan : Plan} (h : Planned configurator disk plan)
    (hroot : disk.rootCertificate = some root) (hfit : configurator.Fit disk root) :
    (certificates (configurator.previousContents disk)).Sublist (certificates plan.bundle) ∧
      (certificates plan.bundle).count (rootBlock root) = 1 ∧ containsCertificate plan.bundle root = true := by
  obtain ⟨other, hother, hbundle⟩ := h.bundle
  obtain rfl : root = other := Option.some.inj (hroot.symm.trans hother)
  have honce := hfit.once
  rcases hbundle with ⟨hpath, hbundle⟩ | ⟨hcontains, hbundle⟩ | ⟨hcontains, hbundle⟩
  · have hempty : configurator.previousContents disk = [] := by rw [previousContents, hpath]
    rw [hbundle, hempty, certificates_root hfit.block]
    exact ⟨List.nil_sublist _, by simp, containsCertificate_root root⟩
  · rw [hcontains, if_pos rfl] at honce
    rw [hbundle, certificates_normalizedPem]
    exact ⟨List.Sublist.refl _, honce, containsCertificate_normalizedPem hcontains⟩
  · rw [hcontains, if_neg (by decide)] at honce
    rw [hbundle, certificates_merged _ hfit.block]
    refine ⟨List.sublist_append_left _ _, ?_, containsCertificate_merged _ root⟩
    rw [List.count_append, honce, List.count_singleton_self]

/-- What a run that succeeds leaves behind. -/
theorem runOn_ok (h : configurator.runOn run disk = (.ok (), after)) :
    ∃ plan, Planned configurator { disk with rootCertificate := some run.rootCertificate } plan ∧
      after.settings = .contents (.obj plan.settings) ∧ after.managedBundle = some plan.bundle ∧
      ∃ state, after.state = some state ∧ state.previousEnvironment = plan.previousEnvironment := by
  rcases configurator.configure_cases run { disk with rootCertificate := some run.rootCertificate } with
    ⟨error, hresult⟩ | ⟨plan, hplan, backups, ⟨error, hresult⟩ | ⟨error, hresult⟩ | ⟨path, hresult⟩⟩
  · cases hresult.symm.trans h
  · cases hresult.symm.trans h
  · cases hresult.symm.trans h
  · cases hresult.symm.trans h
    exact ⟨plan, planned hplan, rfl, rfl, _, rfl, rfl⟩

theorem settingsOf_contents {members : Members} (h : disk.settings = .contents (.obj members)) :
    settingsOf disk = members := by
  rw [settingsOf, h]

theorem environmentOf_member {settings environment : Members} (h : member settings envKey = some (.obj environment)) :
    environmentOf settings = environment := by
  rw [environmentOf, h]

/-- The first run. -/
theorem managed_first (hfit : configurator.Fit disk run.rootCertificate)
    (h : configurator.runOn run disk = (.ok (), after)) : Managed configurator disk run.rootCertificate after := by
  obtain ⟨plan, hplan, hsettings, hbundle, -⟩ := runOn_ok h
  refine ⟨⟨plan.settings, setMember (environmentOf (settingsOf disk)) nodeExtraCaCerts (.str configurator.managedBundlePath),
    hsettings, ?_, ?_, ?_, ?_⟩, plan.bundle, hbundle, ?_⟩
  · rw [hplan.settings, member_setMember, if_pos rfl]
    rfl
  · rw [member_setMember, if_pos rfl]
  · intro key hkey
    rw [hplan.settings, member_setMember, if_neg hkey]
    rfl
  · intro name hname
    rw [member_setMember, if_neg hname]
  · have hcertificates := bundle_certificates hplan rfl ⟨hfit.block, hfit.once⟩
    exact hcertificates

theorem Managed.previousValue_eq (h : Managed configurator original root disk) :
    previousValue disk = some (.str configurator.managedBundlePath) := by
  obtain ⟨members, environment, hsettings, henv, hnode, -, -⟩ := h.settings
  rw [previousValue, settingsOf_contents hsettings, environmentOf_member henv, hnode]

/-- A later run reads the managed bundle back. -/
theorem Managed.previousContents_eq (h : Managed configurator original root disk) {content : Str}
    (hcontent : disk.managedBundle = some content) : configurator.previousContents disk = content := by
  have hpath := previousPath_managedBundlePath configurator
  rw [previousContents, h.previousValue_eq]
  change (match previousPath (some configurator.managedBundlePath) with
    | none => []
    | some path => (configurator.fileAt disk path).getD []) = content
  rw [hpath]
  change (configurator.fileAt disk configurator.managedBundlePath).getD [] = content
  rw [fileAt, if_pos rfl, hcontent]
  rfl

/-- A later run changes no settings. -/
theorem Managed.settings_eq (h : Managed configurator original root disk)
    (hrun : configurator.runOn run disk = (.ok (), after)) : after.settings = disk.settings := by
  obtain ⟨plan, hplan, hsettings, -, -⟩ := runOn_ok hrun
  obtain ⟨members, environment, hmembers, henv, hnode, -, -⟩ := h.settings
  have hread : settingsOf { disk with rootCertificate := some run.rootCertificate } = members := settingsOf_contents hmembers
  rw [hsettings, hplan.settings, hread, environmentOf_member henv, setMember_eq_self hnode, setMember_eq_self henv, hmembers]

/-- A later run. -/
theorem Managed.next (h : Managed configurator original root disk)
    (hfit : configurator.Fit disk run.rootCertificate) (hrun : configurator.runOn run disk = (.ok (), after)) :
    Managed configurator original run.rootCertificate after := by
  obtain ⟨plan, hplan, -, hbundle, -⟩ := runOn_ok hrun
  obtain ⟨content, hcontent, hsublist, -, -⟩ := h.bundle
  obtain ⟨hkept, honce, hcontains⟩ := bundle_certificates hplan rfl ⟨hfit.block, hfit.once⟩
  have hprevious : configurator.previousContents { disk with rootCertificate := some run.rootCertificate } = content :=
    h.previousContents_eq hcontent
  rw [hprevious] at hkept
  have hsettings := h.settings_eq hrun
  refine ⟨?_, plan.bundle, hbundle, hsublist.trans hkept, honce, hcontains⟩
  rw [hsettings]
  exact h.settings

/-- A later run with the same root changes no certificate. -/
theorem Managed.certificates_eq (h : Managed configurator original run.rootCertificate disk)
    (hrun : configurator.runOn run disk = (.ok (), after)) :
    after.managedBundle.map certificates = disk.managedBundle.map certificates := by
  obtain ⟨plan, hplan, -, hbundle, -⟩ := runOn_ok hrun
  obtain ⟨content, hcontent, -, -, hcontains⟩ := h.bundle
  have hprevious : configurator.previousContents { disk with rootCertificate := some run.rootCertificate } = content :=
    h.previousContents_eq hcontent
  have hvalue : previousValue { disk with rootCertificate := some run.rootCertificate } =
      some (.str configurator.managedBundlePath) := h.previousValue_eq
  obtain ⟨root, hroot, hcases⟩ := hplan.bundle
  obtain rfl : run.rootCertificate = root := Option.some.inj hroot
  rw [hprevious, hvalue] at hcases
  rw [hbundle, hcontent]
  rcases hcases with ⟨hpath, -⟩ | ⟨-, hsame⟩ | ⟨hmissing, -⟩
  · rw [show (some (Json.str configurator.managedBundlePath)).bind Json.asStr = some configurator.managedBundlePath from rfl,
      previousPath_managedBundlePath] at hpath
    cases hpath
  · rw [hsame, Option.map_some, certificates_normalizedPem]
    rfl
  · rw [hcontains] at hmissing
    cases hmissing

end Managed
section Runs
variable {original : Disk} {front : List Run} {last : Run}

/-- Every run of some that succeed fits the disk that it finds. -/
def AllFit (configurator : ClaudeCodeConfigurator) : List Run → Disk → Prop
  | [], _ => True
  | run :: runs, disk => configurator.Fit disk run.rootCertificate ∧
    ∀ after, configurator.runOn run disk = (.ok (), after) → configurator.AllFit runs after

/-- A run that stops anywhere leaves the old settings, or the new ones and a managed bundle that has its root. -/
def StopsSafely (configurator : ClaudeCodeConfigurator) (disk : Disk) : Prop :=
  ∀ run, configurator.Fit disk run.rootCertificate →
    (configurator.runOn run disk).2.settings = disk.settings ∨
    ∃ plan content, Planned configurator { disk with rootCertificate := some run.rootCertificate } plan ∧
      (configurator.runOn run disk).2.settings = .contents (.obj plan.settings) ∧
      (configurator.runOn run disk).2.managedBundle = some content ∧ rootBlock run.rootCertificate ∈ certificates content

/-- What is preserved of the user's setup. -/
structure Preserved (configurator : ClaudeCodeConfigurator) (original : Disk) (root : Str) (disk : Disk) : Prop
    extends Managed configurator original root disk where
  again : ∀ run after, run.rootCertificate = root → configurator.runOn run disk = (.ok (), after) →
    after.settings = disk.settings ∧ after.managedBundle.map certificates = disk.managedBundle.map certificates
  recorded : ∃ state, disk.state = some state ∧
    member state.previousEnvironment nodeExtraCaCerts = previousValue original
  stops : configurator.StopsSafely original ∧ configurator.StopsSafely disk

theorem stopsSafely (configurator : ClaudeCodeConfigurator) (disk : Disk) : configurator.StopsSafely disk := by
  intro run hfit
  have hsafe : ∀ plan, configurator.plan run.faults { disk with rootCertificate := some run.rootCertificate } = .ok plan →
      Planned configurator { disk with rootCertificate := some run.rootCertificate } plan ∧
        rootBlock run.rootCertificate ∈ certificates plan.bundle := by
    intro plan hplan
    obtain ⟨-, honce, -⟩ := bundle_certificates (planned hplan) rfl ⟨hfit.block, hfit.once⟩
    exact ⟨planned hplan, List.count_pos_iff.mp (honce ▸ Nat.one_pos)⟩
  rcases configurator.configure_cases run { disk with rootCertificate := some run.rootCertificate } with
    ⟨error, hresult⟩ | ⟨plan, hplan, backups, ⟨error, hresult⟩ | ⟨error, hresult⟩ | ⟨path, hresult⟩⟩
  · rw [runOn, hresult]
    exact .inl rfl
  · rw [runOn, hresult]
    exact .inl rfl
  · rw [runOn, hresult]
    exact .inr ⟨plan, plan.bundle, (hsafe plan hplan).1, rfl, rfl, (hsafe plan hplan).2⟩
  · rw [runOn, hresult]
    exact .inr ⟨plan, plan.bundle, (hsafe plan hplan).1, rfl, rfl, (hsafe plan hplan).2⟩

theorem configureAll_concat (hrun : configurator.configureAll (front ++ [last]) disk = some after) :
    ∃ before, configurator.configureAll front disk = some before ∧ configurator.runOn last before = (.ok (), after) := by
  induction front generalizing disk with
  | nil =>
    refine ⟨disk, rfl, ?_⟩
    rw [List.nil_append, configureAll] at hrun
    split at hrun
    · next hlast =>
      rw [hlast, Option.some.inj hrun]
    · cases hrun
  | cons run front ih =>
    rw [List.cons_append, configureAll] at hrun
    split at hrun
    · next next hnext =>
      obtain ⟨before, hfront, hlast⟩ := ih hrun
      refine ⟨before, ?_, hlast⟩
      rw [configureAll, hnext]
      exact hfront
    · cases hrun

theorem AllFit.concat (hfit : configurator.AllFit (front ++ [last]) disk) {before : Disk}
    (hrun : configurator.configureAll front disk = some before) :
    configurator.AllFit front disk ∧ configurator.Fit before last.rootCertificate := by
  induction front generalizing disk with
  | nil =>
    cases hrun
    exact ⟨trivial, hfit.1⟩
  | cons run front ih =>
    rw [configureAll] at hrun
    split at hrun
    · next next hnext =>
      obtain ⟨hhere, hrest⟩ := hfit
      refine ⟨⟨hhere, fun after hafter => ?_⟩, (ih (hrest next hnext) hrun).2⟩
      obtain rfl : after = next := (Prod.mk.inj (hafter.symm.trans hnext)).2
      exact (ih (hrest after hnext) hrun).1
    · cases hrun

/-- Runs that succeed keep the original certificates and settings. -/
theorem managed_of_runs (hrun : configurator.configureAll (front ++ [last]) disk = some after)
    (hfit : configurator.AllFit (front ++ [last]) disk) : Managed configurator disk last.rootCertificate after := by
  induction front using List.reverseRecOn generalizing last after with
  | nil =>
    obtain ⟨before, hfront, hlast⟩ := configureAll_concat hrun
    cases hfront
    exact managed_first (hfit.concat rfl).2 hlast
  | append_singleton front previous ih =>
    obtain ⟨before, hfront, hlast⟩ := configureAll_concat hrun
    obtain ⟨hfront', hlast'⟩ := hfit.concat hfront
    exact (ih hfront hfront').next hlast' hlast

/-- The state file has the value that the last run found. -/
theorem recorded_of_runOn (h : configurator.runOn run disk = (.ok (), after)) :
    ∃ state, after.state = some state ∧ member state.previousEnvironment nodeExtraCaCerts = previousValue disk := by
  obtain ⟨plan, hplan, -, -, state, hstate, hprevious⟩ := runOn_ok h
  refine ⟨state, hstate, ?_⟩
  rw [hprevious, hplan.previous, member_previousEnvironment]
  rfl

/-- Runs that succeed preserve the user's setup, with the value that is kept in the state file, exactly when there is one
run only or the settings named the managed bundle to begin with. -/
theorem preserved_iff (hrun : configurator.configureAll (front ++ [last]) disk = some after)
    (hfit : configurator.AllFit (front ++ [last]) disk) :
    Preserved configurator disk last.rootCertificate after ↔
      front = [] ∨ previousValue disk = some (.str configurator.managedBundlePath) := by
  obtain ⟨before, hfront, hlast⟩ := configureAll_concat hrun
  have hfound : front = [] ∧ before = disk ∨ previousValue before = some (.str configurator.managedBundlePath) := by
    cases front using List.reverseRecOn with
    | nil =>
      cases hfront
      exact .inl ⟨rfl, rfl⟩
    | append_singleton front previous => exact .inr (managed_of_runs hfront (hfit.concat hfront).1).previousValue_eq
  obtain ⟨state, hstate, hrecorded⟩ := recorded_of_runOn hlast
  constructor
  · intro h
    rcases hfound with ⟨hempty, -⟩ | hmanaged
    · exact .inl hempty
    · obtain ⟨found, hfoundState, hkept⟩ := h.recorded
      obtain rfl : state = found := Option.some.inj (hstate.symm.trans hfoundState)
      exact .inr (hkept.symm.trans (hrecorded.trans hmanaged))
  · intro h
    have hmanaged := managed_of_runs hrun hfit
    refine ⟨hmanaged, ?_, ⟨state, hstate, ?_⟩, configurator.stopsSafely disk, configurator.stopsSafely after⟩
    · intro run again hroot hagain
      rw [← hroot] at hmanaged
      exact ⟨hmanaged.settings_eq hagain, hmanaged.certificates_eq hagain⟩
    · rw [hrecorded]
      rcases hfound with ⟨-, hbefore⟩ | hbefore
      · rw [hbefore]
      · rcases h with hempty | horiginal
        · rw [hempty] at hfront
          cases hfront
          rfl
        · rw [hbefore, horiginal]

section Sample

def sampleConfigurator : ClaudeCodeConfigurator := ⟨"/h".toList, "/ca".toList, rfl⟩

def sampleRun : Run := ⟨"-----BEGIN CERTIFICATE-----\nA\n-----END CERTIFICATE-----\n".toList, [], [], 1, Faults.none⟩

/-- The settings name a bundle of the user, which is empty. -/
def sampleDisk : Disk :=
  ⟨none, .contents (.obj [(envKey, .obj [(nodeExtraCaCerts, .str "/c".toList)])]), none, none, [],
    fun path => if path = [['c']] then some [] else none⟩

/-- One run. -/
theorem sample_preserved : ∃ after, sampleConfigurator.configureAll ([] ++ [sampleRun]) sampleDisk = some after ∧
    (Preserved sampleConfigurator sampleDisk sampleRun.rootCertificate after ↔
      ([] : List Run) = [] ∨ previousValue sampleDisk = some (.str sampleConfigurator.managedBundlePath)) := by
  have hsome : (sampleConfigurator.configureAll ([] ++ [sampleRun]) sampleDisk).isSome = true := by decide
  obtain ⟨after, hafter⟩ := Option.isSome_iff_exists.mp hsome
  have hblock : Pem.IsBlock (rootBlock sampleRun.rootCertificate) := ⟨[['A']], by decide, by decide, by decide⟩
  have hfit : sampleConfigurator.Fit sampleDisk sampleRun.rootCertificate := ⟨hblock, by decide⟩
  exact ⟨after, hafter, preserved_iff hafter ⟨hfit, fun _ _ => trivial⟩⟩

/-- The second of two runs records the bundle that the first one wrote. -/
theorem sample_overwritten : ∃ after, sampleConfigurator.configureAll [sampleRun, sampleRun] sampleDisk = some after ∧
    ¬ Preserved sampleConfigurator sampleDisk sampleRun.rootCertificate after := by
  have hsome : (sampleConfigurator.configureAll [sampleRun, sampleRun] sampleDisk).isSome = true := by decide
  obtain ⟨after, hafter⟩ := Option.isSome_iff_exists.mp hsome
  refine ⟨after, hafter, fun h => ?_⟩
  obtain ⟨state, hstate, hrecorded⟩ := h.recorded
  have hread : ((sampleConfigurator.configureAll [sampleRun, sampleRun] sampleDisk).bind (fun disk => disk.state)).bind
      (fun state => (member state.previousEnvironment nodeExtraCaCerts).bind Json.asStr) ≠ some "/c".toList := by decide
  rw [hafter, Option.bind_some, hstate, Option.bind_some, hrecorded] at hread
  exact hread rfl

end Sample
end Runs
end ClaudeCodeConfigurator
end Abyss.Cli.ClaudeCode
