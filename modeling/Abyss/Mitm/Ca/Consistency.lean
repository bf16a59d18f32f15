import Abyss.Mitm.Ca.Store

/-! The root CA store along every schedule, every failure and every crash. -/
namespace Abyss.Mitm.Ca
open Abyss.Text Abyss.System
variable {digest : List UInt8 → List UInt8} {s s' : Store} {i : Nat}

section Condition

/-- Inside a generation that has opened its first file. -/
def Phase.writes : Phase → Bool
  | .openFile _ file => file ≠ .certificateDer
  | .writeFile .. => true
  | _ => false

/-- Whole contents of one generation. -/
def Store.Complete (s : Store) : Prop := ∃ material ∈ s.generated, s.files = material.stored

/-- Without a key, and with both or neither of the certificate files. -/
def Store.Vacant (s : Store) : Prop :=
  s.files .privateKeyPem = none ∧ (s.files .certificateDer).isSome = (s.files .certificatePem).isSome

def Store.Settled (s : Store) : Prop := s.Vacant ∨ s.Complete

/-- A generation begins to write while nobody else writes and the store is not complete, it is given up only where the
store is settled, and the key is read when the store is complete. Every generated certificate is new. -/
def Phase.Undisturbed (s : Store) : Phase → Outcome → Prop
  | .openFile _ .certificateDer, .ok => (∀ other ∈ s.processes, other.writes = false) ∧ ¬ s.Complete
  | .readKey _ _, .ok => s.Complete
  | .sign, .signed material => ∀ earlier ∈ s.generated, earlier.certificateDer ≠ material.certificateDer
  | phase, .fail => phase.writes = true → s.Settled
  | phase, .crash => phase.writes = true → s.Settled
  | _, _ => True

def Undisturbed (s : Store) (action : Action) : Prop :=
  ∀ phase, s.processes[action.process]? = some phase → phase.Undisturbed s action.outcome

/-- What it takes to give up a generation. -/
theorem Phase.Undisturbed.settled {phase : Phase} {outcome : Outcome} (h : phase.Undisturbed s outcome)
    (houtcome : outcome = .fail ∨ outcome = .crash) (hwrites : phase.writes = true) : s.Settled := by
  rcases houtcome with rfl | rfl
  · cases phase with
    | openFile material file => cases file <;> exact h hwrites
    | _ => exact h hwrites
  · cases phase with
    | openFile material file => cases file <;> exact h hwrites
    | _ => exact h hwrites

end Condition

section Writing

/-- A chunk behind what was written so far. -/
theorem writeAt_take {contents : List UInt8} {offset : Nat} (h : offset ≤ contents.length) (count : Nat) :
    writeAt (contents.take offset) offset ((contents.drop offset).take count) =
      contents.take (offset + ((contents.drop offset).take count).length) := by
  have hlength : (contents.take offset).length = offset := by rw [List.length_take, Nat.min_eq_left h]
  have hchunk : ((contents.drop offset).take ((contents.drop offset).take count).length) = (contents.drop offset).take count :=
    (List.prefix_iff_eq_take.mp (List.take_prefix _ _)).symm
  have hrest : (contents.take offset).drop (offset + ((contents.drop offset).take count).length) = [] :=
    List.drop_eq_nil_of_le (by omega)
  rw [writeAt, hrest, hlength, Nat.sub_self, List.replicate_zero, List.take_take, Nat.min_self, List.append_nil,
    List.append_nil, List.take_add, hchunk]

end Writing

section Invariant

/-- What a process knows of the files. -/
def Phase.Consistent (s : Store) : Phase → Prop
  | .readDer => (s.files .privateKeyPem).isSome
  | .readPem der => (s.files .privateKeyPem).isSome ∧ s.files .certificateDer = some der
  | .readKey der pem => (s.files .privateKeyPem).isSome ∧ s.files .certificateDer = some der ∧
      (s.files .certificatePem).bind fromUtf8 = some pem
  | .openFile material .certificateDer => material ∈ s.generated
  | .openFile material .certificatePem => material ∈ s.generated ∧
      s.files .certificateDer = material.stored .certificateDer ∧ s.files .privateKeyPem = none
  | .openFile material .privateKeyPem => material ∈ s.generated ∧
      s.files .certificateDer = material.stored .certificateDer ∧ s.files .certificatePem = material.stored .certificatePem ∧
      s.files .privateKeyPem = none
  | .writeFile material .certificateDer offset => material ∈ s.generated ∧
      offset ≤ (material.contents .certificateDer).length ∧
      s.files .certificateDer = some ((material.contents .certificateDer).take offset) ∧ s.files .privateKeyPem = none
  | .writeFile material .certificatePem offset => material ∈ s.generated ∧
      offset ≤ (material.contents .certificatePem).length ∧ s.files .certificateDer = material.stored .certificateDer ∧
      s.files .certificatePem = some ((material.contents .certificatePem).take offset) ∧ s.files .privateKeyPem = none
  | .writeFile material .privateKeyPem offset => material ∈ s.generated ∧
      offset ≤ (material.contents .privateKeyPem).length ∧ s.files .certificateDer = material.stored .certificateDer ∧
      s.files .certificatePem = material.stored .certificatePem ∧
      s.files .privateKeyPem = some ((material.contents .privateKeyPem).take offset)
  | _ => True

structure Store.Inv (digest : List UInt8 → List UInt8) (s : Store) : Prop where
  phases : ∀ phase ∈ s.processes, phase.Consistent s
  single : ∀ {i j : Nat} {p q : Phase}, s.processes[i]? = some p → s.processes[j]? = some q → p.writes = true →
    q.writes = true → i = j
  settled : (∀ phase ∈ s.processes, phase.writes = false) → s.Settled
  distinct : ∀ m ∈ s.generated, ∀ m' ∈ s.generated, m.certificateDer = m'.certificateDer → m = m'
  returned : ∀ ca, .ok (some ca) ∈ s.returned → ∃ m ∈ s.generated, ca = m.authority digest

/-- How the files may change under a process that reads them: not at all once there is a key, but for the key. -/
def Follows (files files' : Directory) : Prop :=
  files .privateKeyPem = none ∨ files' .certificateDer = files .certificateDer ∧
    files' .certificatePem = files .certificatePem ∧ ((files .privateKeyPem).isSome → (files' .privateKeyPem).isSome)

theorem Follows.refl (files : Directory) : Follows files files := .inr ⟨rfl, rfl, id⟩

theorem Phase.Consistent.follows {phase : Phase} (h : phase.Consistent s) (hwrites : phase.writes = false)
    (hfollows : Follows s.files s'.files) (hgenerated : ∀ m ∈ s.generated, m ∈ s'.generated) : phase.Consistent s' := by
  have hkey : ∀ {P : Prop}, (s.files .privateKeyPem).isSome → (s.files .privateKeyPem = none → P) := by
    intro P hsome hnone
    rw [hnone] at hsome
    cases hsome
  cases phase with
  | readDer =>
    rcases hfollows with hnone | ⟨-, -, hsome⟩
    · exact hkey h hnone
    · exact hsome h
  | readPem der =>
    rcases hfollows with hnone | ⟨hder, -, hsome⟩
    · exact hkey h.1 hnone
    · exact ⟨hsome h.1, hder.trans h.2⟩
  | readKey der pem =>
    rcases hfollows with hnone | ⟨hder, hpem, hsome⟩
    · exact hkey h.1 hnone
    · exact ⟨hsome h.1, hder.trans h.2.1, hpem ▸ h.2.2⟩
  | openFile material file =>
    cases file with
    | certificateDer => exact hgenerated _ h
    | certificatePem => cases hwrites
    | privateKeyPem => cases hwrites
  | writeFile material file offset => cases hwrites
  | _ => trivial

theorem Phase.Consistent.same {phase : Phase} (h : phase.Consistent s) (hfiles : s'.files = s.files)
    (hgenerated : ∀ m ∈ s.generated, m ∈ s'.generated) : phase.Consistent s' := by
  cases phase with
  | openFile material file =>
    cases file with
    | certificateDer => exact hgenerated _ h
    | certificatePem => exact ⟨hgenerated _ h.1, hfiles ▸ h.2⟩
    | privateKeyPem => exact ⟨hgenerated _ h.1, hfiles ▸ h.2⟩
  | writeFile material file offset => cases file <;> exact ⟨hgenerated _ h.1, hfiles ▸ h.2⟩
  | _ => exact h.follows rfl (hfiles ▸ Follows.refl _) hgenerated

/-- One process goes on. -/
theorem Store.Inv.replace {p p' : Phase} (h : s.Inv digest) (hp : s.processes[i]? = some p)
    (hprocesses : s'.processes = s.processes.set i p') (hgenerated : ∀ m ∈ s.generated, m ∈ s'.generated)
    (hfiles : s'.files = s.files ∨
      Follows s.files s'.files ∧ ∀ (j : Nat) (q : Phase), j ≠ i → s.processes[j]? = some q → q.writes = false)
    (hconsistent : p'.Consistent s')
    (hwriter : p'.writes = true → p.writes = true ∨ ∀ q ∈ s.processes, q.writes = false)
    (hsettled : p'.writes = false →
      (∀ (j : Nat) (q : Phase), j ≠ i → s.processes[j]? = some q → q.writes = false) → s'.Settled)
    (hdistinct : ∀ m ∈ s'.generated, ∀ m' ∈ s'.generated, m.certificateDer = m'.certificateDer → m = m')
    (hreturned : ∀ ca, .ok (some ca) ∈ s'.returned → .ok (some ca) ∈ s.returned ∨ ∃ m ∈ s'.generated, ca = m.authority digest) :
    s'.Inv digest := by
  have hi : i < s.processes.length := (List.getElem?_eq_some_iff.mp hp).1
  have hself : s'.processes[i]? = some p' := by
    rw [hprocesses, List.getElem?_set_self hi]
  have hcases : ∀ {j : Nat} {q : Phase}, s'.processes[j]? = some q → j = i ∧ q = p' ∨ j ≠ i ∧ s.processes[j]? = some q := by
    intro j q hq
    rw [hprocesses] at hq
    exact getElem?_set_cases hq
  refine ⟨?_, ?_, ?_, hdistinct, ?_⟩
  · intro q hq
    obtain ⟨j, hj⟩ := List.mem_iff_getElem?.mp hq
    rcases hcases hj with ⟨-, rfl⟩ | ⟨hne, hold⟩
    · exact hconsistent
    · have hqs := h.phases q (List.mem_of_getElem? hold)
      rcases hfiles with hsame | ⟨hfollows, hothers⟩
      · exact hqs.same hsame hgenerated
      · exact hqs.follows (hothers j q hne hold) hfollows hgenerated
  · have hone : ∀ {j q}, j ≠ i → s.processes[j]? = some q → p'.writes = true → q.writes = false := by
      intro j q hne hq hp'
      rcases hwriter hp' with hold | hnone
      · by_contra hwrites
        exact hne (h.single hq hp (by simpa using hwrites) hold)
      · exact hnone q (List.mem_of_getElem? hq)
    intro j k q r hj hk hq hr
    rcases hcases hj with ⟨rfl, rfl⟩ | ⟨hnej, hoj⟩ <;> rcases hcases hk with ⟨rfl, rfl⟩ | ⟨hnek, hok⟩
    · rfl
    · rw [hone hnek hok hq] at hr
      cases hr
    · rw [hone hnej hoj hr] at hq
      cases hq
    · exact h.single hoj hok hq hr
  · intro hnone
    apply hsettled (hnone p' (List.mem_of_getElem? hself))
    intro j q hne hq
    apply hnone q
    apply List.mem_of_getElem? (i := j)
    rw [hprocesses, List.getElem?_set_ne hne.symm]
    exact hq
  · intro ca hca
    rcases hreturned ca hca with hold | hnew
    · obtain ⟨m, hm, heq⟩ := h.returned ca hold
      exact ⟨m, hgenerated m hm, heq⟩
    · exact hnew

/-- Nobody writes, where no other process does and this one does not. -/
theorem none_writes {p : Phase} (hp : s.processes[i]? = some p) (hwrites : p.writes = false)
    (hothers : ∀ (j : Nat) (q : Phase), j ≠ i → s.processes[j]? = some q → q.writes = false) :
    ∀ q ∈ s.processes, q.writes = false := by
  intro q hq
  obtain ⟨j, hj⟩ := List.mem_iff_getElem?.mp hq
  by_cases hji : j = i
  · subst hji
    obtain rfl := Option.some.inj (hp.symm.trans hj)
    exact hwrites
  · exact hothers j q hji hj

/-- The other processes do not write, where this one does. -/
theorem Store.Inv.others {p : Phase} (h : s.Inv digest) (hp : s.processes[i]? = some p) (hwrites : p.writes = true)
    (j : Nat) (q : Phase) (hne : j ≠ i) (hq : s.processes[j]? = some q) : q.writes = false := by
  by_contra hother
  exact hne (h.single hq hp (by simpa using hother) hwrites)

/-- A step of a process that leaves the files as they are, and that does not begin to write. -/
theorem Store.Inv.pass {p p' : Phase} (h : s.Inv digest) (hp : s.processes[i]? = some p)
    (hprocesses : s'.processes = s.processes.set i p') (hgenerated : s'.generated = s.generated)
    (hfiles : s'.files = s.files) (hconsistent : p'.Consistent s) (hwrites : p'.writes = false)
    (hsettled : p.writes = true → s.Settled)
    (hreturned : ∀ ca, .ok (some ca) ∈ s'.returned → .ok (some ca) ∈ s.returned ∨ ∃ m ∈ s.generated, ca = m.authority digest) :
    s'.Inv digest := by
  have hsame : ∀ m ∈ s.generated, m ∈ s'.generated := fun m hm => hgenerated ▸ hm
  refine h.replace hp hprocesses hsame (.inl hfiles) (hconsistent.same hfiles hsame) ?_ ?_ ?_ ?_
  · intro hwrites'
    rw [hwrites] at hwrites'
    cases hwrites'
  · intro _ hothers
    have hs : s.Settled := by
      cases hp' : p.writes with
      | false => exact h.settled (none_writes hp hp' hothers)
      | true => exact hsettled hp'
    rcases hs with ⟨hkey, hpublic⟩ | ⟨m, hm, hstored⟩
    · exact .inl ⟨hfiles ▸ hkey, hfiles ▸ hpublic⟩
    · exact .inr ⟨m, hsame m hm, hfiles.trans hstored⟩
  · rw [hgenerated]
    exact h.distinct
  · rw [hgenerated]
    exact hreturned

theorem Store.Inv.goto {p p' : Phase} (h : s.Inv digest) (hp : s.processes[i]? = some p) (hconsistent : p'.Consistent s)
    (hwrites : p'.writes = false) (hsettled : p.writes = true → s.Settled) : (s.goto i p').Inv digest :=
  h.pass hp rfl rfl rfl hconsistent hwrites hsettled (fun _ hca => .inl hca)

theorem Store.Inv.finish {p : Phase} (h : s.Inv digest) (hp : s.processes[i]? = some p) {result : CaResult}
    (hsettled : p.writes = true → s.Settled)
    (hresult : ∀ ca, result = .ok (some ca) → ∃ m ∈ s.generated, ca = m.authority digest) : (s.finish i result).Inv digest := by
  refine h.pass hp rfl rfl rfl trivial rfl hsettled ?_
  intro ca hca
  rcases List.mem_append.mp hca with hold | hnew
  · exact .inl hold
  · exact .inr (hresult ca (List.mem_singleton.mp hnew).symm)

theorem Store.Inv.fail {p : Phase} (h : s.Inv digest) (hp : s.processes[i]? = some p) (hsettled : p.writes = true → s.Settled)
    (error : CaError) : (s.fail i error).Inv digest :=
  h.finish hp hsettled (by rintro ca ⟨⟩)

/-- What the presence leads to is to read only where the key was found. -/
theorem decidePresence_phase {asker : Asker} {presence : CaStorePresence} {p : Phase}
    (h : decidePresence asker presence = .inl p) (hkey : presence.privateKeyPem = true → (s.files .privateKeyPem).isSome) :
    p.writes = false ∧ p.Consistent s := by
  cases asker with
  | loadWith =>
    cases h
    split <;> exact ⟨rfl, trivial⟩
  | loadOrGenerateWith =>
    unfold decidePresence at h
    simp only at h
    split at h
    · cases h
      exact ⟨rfl, trivial⟩
    · split at h <;> cases h
      exact ⟨rfl, trivial⟩
  | load required =>
    unfold decidePresence at h
    simp only at h
    split at h
    · cases h
    · split at h
      · cases h
      · next hpresent =>
        cases h
        refine ⟨rfl, hkey ?_⟩
        simp only [Bool.not_eq_true', CaStorePresence.allPresent, Bool.not_eq_false, Bool.and_eq_true] at hpresent
        exact hpresent.2

theorem decidePresence_result {asker : Asker} {presence : CaStorePresence} {result : CaResult}
    (h : decidePresence asker presence = .inr result) (ca : CertificateAuthority) : result ≠ .ok (some ca) := by
  rintro rfl
  cases asker with
  | loadWith => cases h
  | loadOrGenerateWith =>
    unfold decidePresence at h
    simp only at h
    split at h
    · cases h
    · split at h <;> cases h
  | load required =>
    unfold decidePresence at h
    simp only at h
    split at h
    · cases required <;> cases h
    · split at h <;> cases h

/-- A check of one file that finds it only where it is. -/
theorem Store.Inv.check {asker : Asker} {seen : List Bool} {found : Bool} (h : s.Inv digest)
    (hp : s.processes[i]? = some (.presence asker seen)) (hfound : found = true → (s.files (Store.checked seen)).isSome = true) :
    (s.check i asker found seen).Inv digest := by
  have hnone : (Phase.presence asker seen).writes = true → s.Settled := by rintro ⟨⟩
  unfold Store.check
  split
  · split
    · next hphase =>
      obtain ⟨hwrites, hconsistent⟩ := decidePresence_phase hphase hfound
      exact h.goto hp hconsistent hwrites hnone
    · next hresult => exact h.finish hp hnone (fun ca hca => absurd hca (decidePresence_result hresult ca))
  · exact h.goto hp trivial rfl hnone

theorem Store.Inv.read {p : Phase} {file : CaFile} {andThen : List UInt8 → Store} (h : s.Inv digest)
    (hp : s.processes[i]? = some p) (hsettled : p.writes = true → s.Settled)
    (hthen : ∀ contents, s.files file = some contents → (andThen contents).Inv digest) :
    (s.read i file andThen).Inv digest := by
  unfold Store.read
  split
  · next contents hcontents => exact hthen contents hcontents
  · exact h.fail hp hsettled _

theorem Store.Inv.readToString {p : Phase} {file : CaFile} {andThen : Str → Store} (h : s.Inv digest)
    (hp : s.processes[i]? = some p) (hsettled : p.writes = true → s.Settled)
    (hthen : ∀ text, (s.files file).bind fromUtf8 = some text → (andThen text).Inv digest) :
    (s.readToString i file andThen).Inv digest := by
  apply h.read hp hsettled
  intro contents hcontents
  split
  · next text htext => exact hthen text (by rw [hcontents, Option.bind_some, htext])
  · exact h.fail hp hsettled _

/-- What the three reads of a complete store give. -/
theorem Store.Complete.authority (h : s.Complete) {der : List UInt8} {pem key : Str} (hder : s.files .certificateDer = some der)
    (hpem : (s.files .certificatePem).bind fromUtf8 = some pem) (hkey : (s.files .privateKeyPem).bind fromUtf8 = some key) :
    ∃ m ∈ s.generated, CertificateAuthority.fromParts digest der pem key = m.authority digest := by
  obtain ⟨m, hm, hstored⟩ := h
  rw [hstored] at hder hpem hkey
  have hder' : m.certificateDer = der := Option.some.inj hder
  have hpem' : m.certificatePem = pem := Option.some.inj ((fromUtf8_toUtf8 _).symm.trans hpem)
  have hkey' : m.privateKeyPem = key := Option.some.inj ((fromUtf8_toUtf8 _).symm.trans hkey)
  exact ⟨m, hm, by rw [Material.authority, hder', hpem', hkey']⟩

/-- A step of the process that writes, or that begins to. -/
theorem Store.Inv.write {p p' : Phase} (h : s.Inv digest) (hp : s.processes[i]? = some p)
    (hprocesses : s'.processes = s.processes.set i p') (hgenerated : s'.generated = s.generated)
    (hreturned : s'.returned = s.returned)
    (hfiles : s'.files = s.files ∨ Follows s.files s'.files) (hconsistent : p'.Consistent s') (hwrites' : p'.writes = true)
    (hwrites : p.writes = true ∨ ∀ q ∈ s.processes, q.writes = false) : s'.Inv digest := by
  have hothers : ∀ (j : Nat) (q : Phase), j ≠ i → s.processes[j]? = some q → q.writes = false := by
    intro j q hne hq
    rcases hwrites with hself | hnone
    · exact h.others hp hself j q hne hq
    · exact hnone q (List.mem_of_getElem? hq)
  refine h.replace hp hprocesses (fun m hm => hgenerated ▸ hm) (hfiles.imp id fun hfollows => ⟨hfollows, hothers⟩) hconsistent
    (fun _ => hwrites) ?_ ?_ ?_
  · intro hnot
    rw [hwrites'] at hnot
    cases hnot
  · rw [hgenerated]
    exact h.distinct
  · intro ca hca
    exact .inl (hreturned ▸ hca)

/-- Without a key, or by a write to the key itself, the others follow. -/
theorem follows_set {files : Directory} {file : CaFile} {contents : List UInt8}
    (h : files .privateKeyPem = none ∨ file = .privateKeyPem) : Follows files (files.set file contents) := by
  rcases h with hnone | rfl
  · exact .inl hnone
  · refine .inr ⟨Directory.set_of_ne _ _ nofun, Directory.set_of_ne _ _ nofun, fun _ => ?_⟩
    rw [Directory.set_self]
    rfl

/-- The file of a generation is opened. -/
theorem Store.Inv.openFile {material : Material} {file : CaFile} (h : s.Inv digest)
    (hp : s.processes[i]? = some (.openFile material file))
    (hfirst : file = .certificateDer → (∀ other ∈ s.processes, other.writes = false) ∧ ¬ s.Complete) :
    Store.Inv digest { s.goto i (.writeFile material file 0) with files := s.files.set file [] } := by
  have hself := h.phases _ (List.mem_of_getElem? hp)
  have hnone : s.files .privateKeyPem = none := by
    cases file with
    | certificateDer =>
      obtain ⟨hothers, hcomplete⟩ := hfirst rfl
      exact ((h.settled hothers).resolve_right hcomplete).1
    | certificatePem => exact hself.2.2
    | privateKeyPem => exact hself.2.2.2
  have hwrites : (Phase.openFile material file).writes = true ∨ ∀ q ∈ s.processes, q.writes = false := by
    cases file with
    | certificateDer => exact .inr (hfirst rfl).1
    | certificatePem => exact .inl rfl
    | privateKeyPem => exact .inl rfl
  refine h.write hp rfl rfl rfl (.inr (follows_set (.inl hnone))) ?_ rfl hwrites
  cases file with
  | certificateDer => exact ⟨hself, Nat.zero_le _, Directory.set_self s.files .certificateDer [], hnone⟩
  | certificatePem => exact ⟨hself.1, Nat.zero_le _, hself.2.1, Directory.set_self s.files .certificatePem [], hnone⟩
  | privateKeyPem => exact ⟨hself.1, Nat.zero_le _, hself.2.1, hself.2.2.1, Directory.set_self s.files .privateKeyPem []⟩

/-- The file that a process writes holds what it has written. -/
theorem Phase.Consistent.written {material : Material} {file : CaFile} {offset : Nat}
    (h : (Phase.writeFile material file offset).Consistent s) : material ∈ s.generated ∧
      offset ≤ (material.contents file).length ∧ s.files file = some ((material.contents file).take offset) ∧
      (s.files .privateKeyPem = none ∨ file = .privateKeyPem) := by
  cases file with
  | certificateDer => exact ⟨h.1, h.2.1, h.2.2.1, .inl h.2.2.2⟩
  | certificatePem => exact ⟨h.1, h.2.1, h.2.2.2.1, .inl h.2.2.2.2⟩
  | privateKeyPem => exact ⟨h.1, h.2.1, h.2.2.2.2, .inr rfl⟩

/-- More of a file is written. -/
theorem Store.Inv.wrote {material : Material} {file : CaFile} {offset count : Nat} (h : s.Inv digest)
    (hp : s.processes[i]? = some (.writeFile material file offset)) :
    Store.Inv digest { s.goto i (.writeFile material file (offset + (((material.contents file).drop offset).take count).length)) with
      files := s.files.set file
        (writeAt ((s.files file).getD []) offset (((material.contents file).drop offset).take count)) } := by
  have hself := h.phases _ (List.mem_of_getElem? hp)
  obtain ⟨-, hoffset, hfile, hkey⟩ := hself.written
  have hbound : offset + (((material.contents file).drop offset).take count).length ≤ (material.contents file).length := by
    rw [List.length_take, List.length_drop]
    omega
  rw [hfile, Option.getD_some, writeAt_take hoffset]
  refine h.write hp rfl rfl rfl (.inr (follows_set hkey)) ?_ rfl (.inl rfl)
  cases file with
  | certificateDer => exact ⟨hself.1, hbound, Directory.set_self s.files .certificateDer _, hself.2.2.2⟩
  | certificatePem => exact ⟨hself.1, hbound, hself.2.2.1, Directory.set_self s.files .certificatePem _, hself.2.2.2.2⟩
  | privateKeyPem => exact ⟨hself.1, hbound, hself.2.2.1, hself.2.2.2.1, Directory.set_self s.files .privateKeyPem _⟩

/-- A file is written to its end. -/
theorem Phase.Consistent.ended {material : Material} {file : CaFile} {offset : Nat}
    (h : (Phase.writeFile material file offset).Consistent s) (hend : ¬ offset < (material.contents file).length) :
    s.files file = material.stored file := by
  obtain ⟨-, -, hfile, -⟩ := h.written
  rw [hfile, List.take_of_length_le (Nat.le_of_not_lt hend)]
  rfl

theorem Store.Inv.ended {material : Material} {file : CaFile} {offset : Nat} (h : s.Inv digest)
    (hp : s.processes[i]? = some (.writeFile material file offset)) (hend : ¬ offset < (material.contents file).length) :
    Store.Inv digest (match file.next with
      | some next => s.goto i (.openFile material next)
      | none => s.finish i (.ok (some (material.authority digest)))) := by
  have hself := h.phases _ (List.mem_of_getElem? hp)
  have hfile := hself.ended hend
  cases file with
  | certificateDer => exact h.write hp rfl rfl rfl (.inl rfl) ⟨hself.1, hfile, hself.2.2.2⟩ rfl (.inl rfl)
  | certificatePem =>
    exact h.write hp rfl rfl rfl (.inl rfl) ⟨hself.1, hself.2.2.1, hfile, hself.2.2.2.2⟩ rfl (.inl rfl)
  | privateKeyPem =>
    have hcomplete : s.Complete := by
      refine ⟨material, hself.1, funext fun file => ?_⟩
      cases file with
      | certificateDer => exact hself.2.2.1
      | certificatePem => exact hself.2.2.2.1
      | privateKeyPem => exact hfile
    refine h.finish hp (fun _ => .inr hcomplete) ?_
    rintro ca ⟨⟩
    exact ⟨material, hself.1, rfl⟩

/-- A new certificate. -/
theorem Store.Inv.signed {material : Material} (h : s.Inv digest) (hp : s.processes[i]? = some .sign)
    (hnew : ∀ earlier ∈ s.generated, earlier.certificateDer ≠ material.certificateDer) :
    Store.Inv digest { s.goto i (.openFile material .certificateDer) with generated := s.generated ++ [material] } := by
  have hgenerated : ∀ m ∈ s.generated, m ∈ s.generated ++ [material] := fun m hm => List.mem_append_left _ hm
  refine h.replace hp rfl hgenerated (.inl rfl) (List.mem_append_right _ (List.mem_singleton_self _)) ?_ ?_ ?_ ?_
  · rintro ⟨⟩
  · intro _ hothers
    rcases h.settled (none_writes hp rfl hothers) with hvacant | ⟨m, hm, hstored⟩
    · exact .inl hvacant
    · exact .inr ⟨m, hgenerated m hm, hstored⟩
  · intro m hm m' hm' heq
    rcases List.mem_append.mp hm with hold | hself <;> rcases List.mem_append.mp hm' with hold' | hself'
    · exact h.distinct m hold m' hold' heq
    · obtain rfl := List.mem_singleton.mp hself'
      exact absurd heq (hnew m hold)
    · obtain rfl := List.mem_singleton.mp hself
      exact absurd heq.symm (hnew m' hold')
    · rw [List.mem_singleton.mp hself, List.mem_singleton.mp hself']
  · exact fun ca hca => .inl hca

theorem Store.Inv.step {action : Action} (h : s.Inv digest) (hundisturbed : Undisturbed s action)
    (hstep : s.step digest action = some s') : s'.Inv digest := by
  obtain ⟨i, outcome⟩ := action
  obtain ⟨phase, hp, hadvance⟩ := Option.bind_eq_some_iff.mp hstep
  change s.advance digest i phase outcome = some s' at hadvance
  have hcondition : phase.Undisturbed s outcome := hundisturbed phase hp
  have hself := h.phases phase (List.mem_of_getElem? hp)
  have hnone : ∀ {p : Phase}, p.writes = false → p.writes = true → s.Settled := by
    intro p hfalse htrue
    rw [hfalse] at htrue
    cases htrue
  unfold Store.advance at hadvance
  split at hadvance
  · cases hadvance
    exact h.goto hp trivial rfl (hnone rfl)
  · cases hadvance
    exact h.check hp id
  · cases hadvance
    exact h.check hp (by rintro ⟨⟩)
  · cases hadvance
    exact h.goto hp trivial rfl (hnone rfl)
  · cases hadvance
    exact h.goto hp trivial rfl (hnone rfl)
  · cases hadvance
    exact h.fail hp (hcondition.settled (.inl rfl)) _
  · cases hadvance
    exact h.read hp (hnone rfl) fun der hder => h.goto hp ⟨hself, hder⟩ rfl (hnone rfl)
  · cases hadvance
    exact h.fail hp (hcondition.settled (.inl rfl)) _
  · cases hadvance
    exact h.readToString hp (hnone rfl) fun pem hpem => h.goto hp ⟨hself.1, hself.2, hpem⟩ rfl (hnone rfl)
  · cases hadvance
    exact h.fail hp (hcondition.settled (.inl rfl)) _
  · cases hadvance
    refine h.readToString hp (hnone rfl) fun key hkey => h.finish hp (hnone rfl) ?_
    rintro ca ⟨⟩
    exact Store.Complete.authority hcondition hself.2.1 hself.2.2 hkey
  · cases hadvance
    exact h.fail hp (hcondition.settled (.inl rfl)) _
  · cases hadvance
    exact h.goto hp trivial rfl (hnone rfl)
  · cases hadvance
    exact h.fail hp (hcondition.settled (.inl rfl)) _
  · cases hadvance
    exact h.signed hp hcondition
  · cases hadvance
    exact h.fail hp (hcondition.settled (.inl rfl)) _
  · cases hadvance
    apply h.openFile hp
    rintro rfl
    exact hcondition
  · cases hadvance
    exact h.fail hp (hcondition.settled (.inl rfl)) _
  · cases hadvance
    exact h.wrote hp
  · split at hadvance
    · cases hadvance
    · next hend =>
      have hended := h.ended hp hend
      split at hadvance <;> next hnext => (cases hadvance; rw [hnext] at hended; exact hended)
  · cases hadvance
    exact h.fail hp (hcondition.settled (.inl rfl)) _
  · cases hadvance
  · cases hadvance
    exact h.goto hp trivial rfl (hcondition.settled (.inr rfl))
  · cases hadvance

theorem check_keeps (P : Store → Prop) {asker : Asker} {found : Bool} {seen : List Bool} (hgoto : ∀ phase, P (s.goto i phase))
    (hfinish : ∀ result, P (s.finish i result)) : P (s.check i asker found seen) := by
  unfold Store.check
  split
  · split
    · exact hgoto _
    · exact hfinish _
  · exact hgoto _

theorem read_keeps (P : Store → Prop) {file : CaFile} {andThen : List UInt8 → Store} (hfinish : ∀ result, P (s.finish i result))
    (hthen : ∀ contents, P (andThen contents)) : P (s.read i file andThen) := by
  unfold Store.read
  split
  · exact hthen _
  · exact hfinish _

theorem readToString_keeps (P : Store → Prop) {file : CaFile} {andThen : Str → Store} (hfinish : ∀ result, P (s.finish i result))
    (hthen : ∀ text, P (andThen text)) : P (s.readToString i file andThen) := by
  apply read_keeps P hfinish
  intro contents
  split
  · exact hthen _
  · exact hfinish _

theorem step_generated {action : Action} {material : Material} (hstep : s.step digest action = some s')
    (h : material ∈ s.generated) : material ∈ s'.generated := by
  obtain ⟨phase, -, hadvance⟩ := Option.bind_eq_some_iff.mp hstep
  unfold Store.advance at hadvance
  split at hadvance
  case h_2 | h_3 =>
    cases hadvance
    exact check_keeps (material ∈ ·.generated) (fun _ => h) (fun _ => h)
  case h_7 =>
    cases hadvance
    exact read_keeps (material ∈ ·.generated) (fun _ => h) (fun _ => h)
  case h_9 | h_11 =>
    cases hadvance
    exact readToString_keeps (material ∈ ·.generated) (fun _ => h) (fun _ => h)
  case h_15 =>
    cases hadvance
    exact List.mem_append_left _ h
  case h_20 =>
    split at hadvance
    · cases hadvance
    · split at hadvance <;> (cases hadvance; exact h)
  all_goals
    cases hadvance
    try exact h

/-- A complete store is not written over. -/
theorem Store.Inv.keeps {action : Action} {material : Material} (h : s.Inv digest) (hundisturbed : Undisturbed s action)
    (hstep : s.step digest action = some s') (hmaterial : material ∈ s.generated) (hstored : s.files = material.stored) :
    s'.files = s.files := by
  obtain ⟨i, outcome⟩ := action
  obtain ⟨phase, hp, hadvance⟩ := Option.bind_eq_some_iff.mp hstep
  change s.advance digest i phase outcome = some s' at hadvance
  have hcondition : phase.Undisturbed s outcome := hundisturbed phase hp
  have hself := h.phases phase (List.mem_of_getElem? hp)
  have hcomplete : s.Complete := ⟨material, hmaterial, hstored⟩
  have hkey : s.files .privateKeyPem ≠ none := by
    rw [hstored]
    nofun
  unfold Store.advance at hadvance
  split at hadvance
  case h_17 =>
    next writing file =>
    cases hadvance
    exfalso
    cases file with
    | certificateDer => exact hcondition.2 hcomplete
    | certificatePem => exact hkey hself.2.2
    | privateKeyPem => exact hkey hself.2.2.2
  case h_19 =>
    -- the process writes the key, and its certificate is the one of the store
    next writing file offset count =>
    cases hadvance
    obtain ⟨hwriting, hoffset, hfile, hend⟩ := hself.written
    obtain rfl := hend.resolve_left hkey
    have hder : writing.certificateDer = material.certificateDer := by
      have hder := hself.2.2.1
      rw [hstored] at hder
      exact (Option.some.inj hder).symm
    obtain rfl := h.distinct _ hwriting _ hmaterial hder
    have hwhole : (writing.contents .privateKeyPem).take offset = writing.contents .privateKeyPem := by
      rw [hstored] at hfile
      exact (Option.some.inj hfile).symm
    have hlength := congrArg List.length hwhole
    rw [List.length_take] at hlength
    have hchunk : (writing.contents .privateKeyPem).drop offset = [] := List.drop_eq_nil_of_le (by omega)
    show s.files.set .privateKeyPem _ = s.files
    rw [hfile, Option.getD_some, writeAt_take hoffset, hchunk, List.take_nil, List.length_nil, Nat.add_zero]
    funext other
    by_cases hother : other = .privateKeyPem
    · subst hother
      rw [Directory.set_self, hfile]
    · exact Directory.set_of_ne _ _ hother
  case h_2 | h_3 =>
    cases hadvance
    exact check_keeps (·.files = s.files) (fun _ => rfl) (fun _ => rfl)
  case h_7 =>
    cases hadvance
    exact read_keeps (·.files = s.files) (fun _ => rfl) (fun _ => rfl)
  case h_9 | h_11 =>
    cases hadvance
    exact readToString_keeps (·.files = s.files) (fun _ => rfl) (fun _ => rfl)
  case h_20 =>
    split at hadvance
    · cases hadvance
    · split at hadvance <;> (cases hadvance; rfl)
  all_goals
    cases hadvance
    try rfl

end Invariant
section Recovery
variable {p p' : Phase} {outcome : Outcome} {rest : List Action} {s'' : Store}

theorem run_alone (hp : s.processes[i]? = some p) (hadvance : s.advance digest i p outcome = some s')
    (hrest : run (Store.step digest) s' rest = some s'') : run (Store.step digest) s (⟨i, outcome⟩ :: rest) = some s'' := by
  refine run_cons.mpr ⟨s', ?_, hrest⟩
  rw [Store.step, hp]
  exact hadvance

theorem goto_self (hp : s.processes[i]? = some p) (p' : Phase) : (s.goto i p').processes[i]? = some p' :=
  List.getElem?_set_self (List.getElem?_eq_some_iff.mp hp).1

@[simp] theorem goto_goto (p p' : Phase) : (s.goto i p).goto i p' = s.goto i p' := by
  simp only [Store.goto, List.set_set]

@[simp] theorem goto_finish (p : Phase) (result : CaResult) : (s.goto i p).finish i result = s.finish i result := by
  simp only [Store.goto, Store.finish, List.set_set]

def Store.present (s : Store) : CaStorePresence :=
  ⟨(s.files .certificateDer).isSome, (s.files .certificatePem).isSome, (s.files .privateKeyPem).isSome⟩

/-- The three checks, where nobody else acts. -/
theorem run_presence {asker : Asker} (hp : s.processes[i]? = some p)
    (hdecide : decidePresence asker s.present = .inl p') (hrest : run (Store.step digest) (s.goto i p') rest = some s'') :
    run (Store.step digest) (s.goto i (.presence asker [])) (⟨i, .ok⟩ :: ⟨i, .ok⟩ :: ⟨i, .ok⟩ :: rest) = some s'' := by
  refine run_alone (goto_self hp _) (congrArg some (goto_goto _ _)) ?_
  refine run_alone (goto_self hp _) (congrArg some (goto_goto _ _)) ?_
  refine run_alone (goto_self hp _) (congrArg some ?_) hrest
  show Store.check _ i asker _ [_, _] = _
  unfold Store.check
  simp only
  erw [hdecide]
  exact goto_goto _ _

theorem set_set (files : Directory) (file : CaFile) (contents contents' : List UInt8) :
    (files.set file contents).set file contents' = files.set file contents' := by
  funext other
  unfold Directory.set
  split <;> rfl

/-- The store with the file of a generation written, and its process behind that. -/
def Store.afterFile (digest : List UInt8 → List UInt8) (s : Store) (i : Nat) (material : Material) (file : CaFile) : Store :=
  let written : Store := { s with files := s.files.set file (material.contents file) }
  match file.next with
  | some next => written.goto i (.openFile material next)
  | none => written.finish i (.ok (some (material.authority digest)))

/-- A file is written, where nobody else acts. -/
theorem run_file {material : Material} {file : CaFile} (hp : s.processes[i]? = some (.openFile material file))
    (hrest : run (Store.step digest) (s.afterFile digest i material file) rest = some s'') :
    run (Store.step digest) s (⟨i, .ok⟩ :: ⟨i, .wrote (material.contents file).length⟩ :: ⟨i, .ok⟩ :: rest) = some s'' := by
  have hchunk : ((material.contents file).drop 0).take (material.contents file).length = material.contents file := by
    rw [List.drop_zero, List.take_length]
  have hwritten : writeAt [] 0 (material.contents file) = material.contents file := by
    simp [writeAt]
  have hopened : s.advance digest i (.openFile material file) .ok =
      some ({ s with files := s.files.set file [] }.goto i (.writeFile material file 0)) := rfl
  have hwrote : ({ s with files := s.files.set file [] }.goto i (.writeFile material file 0)).advance digest i
      (.writeFile material file 0) (.wrote (material.contents file).length) =
      some ({ s with files := s.files.set file (material.contents file) }.goto i
        (.writeFile material file (material.contents file).length)) := by
    simp only [Store.advance, goto_goto, hchunk, Nat.zero_add]
    simp only [Store.goto, Directory.set_self, Option.getD_some, hwritten, set_set]
  have hended : ({ s with files := s.files.set file (material.contents file) }.goto i
      (.writeFile material file (material.contents file).length)).advance digest i
      (.writeFile material file (material.contents file).length) .ok = some (s.afterFile digest i material file) := by
    cases file <;> simp only [Store.advance, Nat.lt_irrefl, if_false, Store.afterFile, CaFile.next, goto_goto, goto_finish]
  refine run_alone hp hopened ?_
  refine run_alone (goto_self (s := { s with files := s.files.set file [] }) hp _) hwrote ?_
  exact run_alone (goto_self (s := { s with files := s.files.set file (material.contents file) }) hp _) hended hrest

/-- The outcomes of a generation without a failure. -/
def generation (material : Material) : List Outcome :=
  [.ok, .ok, .ok, .ok, .ok, .signed material,
    .ok, .wrote (material.contents .certificateDer).length, .ok,
    .ok, .wrote (material.contents .certificatePem).length, .ok,
    .ok, .wrote (material.contents .privateKeyPem).length, .ok]

theorem set_stored (files : Directory) (material : Material) :
    ((files.set .certificateDer (material.contents .certificateDer)).set .certificatePem
      (material.contents .certificatePem)).set .privateKeyPem (material.contents .privateKeyPem) = material.stored := by
  funext file
  cases file <;> rfl

theorem run_generation (hp : s.processes[i]? = some .idle) (material : Material)
    (hdecide : decidePresence .loadOrGenerateWith s.present = .inl (.prepare .generate)) :
    run (Store.step digest) s ((.start .loadOrGenerateWith :: generation material).map (⟨i, ·⟩)) =
      some ({ s with files := material.stored, generated := s.generated ++ [material] }.finish i
        (.ok (some (material.authority digest)))) := by
  refine run_alone hp rfl (run_presence hp hdecide ?_)
  refine run_alone (goto_self hp _) (congrArg some (goto_goto _ _)) ?_
  refine run_alone (goto_self hp _) (congrArg some (goto_goto _ _)) ?_
  have hsigned : (s.goto i .sign).advance digest i .sign (.signed material) =
      some ({ s with generated := s.generated ++ [material] }.goto i (.openFile material .certificateDer)) := by
    simp only [Store.advance, goto_goto]
    rfl
  refine run_alone (goto_self hp _) hsigned ?_
  have hself : ∀ (files : Directory) (p : Phase), (({ s with files, generated := s.generated ++ [material] } : Store).goto i p).processes[i]? =
      some p := fun files p => goto_self (s := { s with files, generated := s.generated ++ [material] }) hp p
  have hafter : ∀ (files : Directory) (file next : CaFile), file.next = some next →
      (({ s with files, generated := s.generated ++ [material] } : Store).goto i (.openFile material file)).afterFile digest i
        material file =
      ({ s with files := files.set file (material.contents file), generated := s.generated ++ [material] } : Store).goto i
        (.openFile material next) := by
    intro files file next hnext
    simp only [Store.afterFile, hnext, Store.goto, List.set_set]
  refine run_file (hself _ _) ?_
  rw [hafter _ .certificateDer .certificatePem rfl]
  refine run_file (hself _ _) ?_
  rw [hafter _ .certificatePem .privateKeyPem rfl]
  refine run_file (hself _ _) ?_
  simp only [Store.afterFile, CaFile.next, Store.goto, Store.finish, List.set_set, List.map_nil, run]
  rw [← set_stored s.files material]

/-- The outcomes of a load without a failure. -/
def loading : List Outcome := [.ok, .ok, .ok, .ok, .ok, .ok, .ok, .ok, .ok, .ok]

theorem run_loading (hp : s.processes[i]? = some .idle) {material : Material} (hstored : s.files = material.stored) :
    run (Store.step digest) s ((.start .loadOrGenerateWith :: loading).map (⟨i, ·⟩)) =
      some (s.finish i (.ok (some (material.authority digest)))) := by
  have hpresent : s.present = ⟨true, true, true⟩ := by
    rw [Store.present, hstored]
    rfl
  have hdecide : decidePresence .loadOrGenerateWith s.present = .inl (.prepare (.load true)) := by
    rw [hpresent]
    rfl
  have hagain : decidePresence (.load true) s.present = .inl .readDer := by
    rw [hpresent]
    rfl
  refine run_alone hp rfl (run_presence hp hdecide ?_)
  refine run_alone (goto_self hp _) (congrArg some (goto_goto _ _)) ?_
  refine run_presence hp hagain ?_
  have hread : ∀ {p : Phase} {file : CaFile} {andThen : List UInt8 → Store},
      (s.goto i p).read i file andThen = andThen (material.contents file) := by
    intro p file andThen
    have hfile : (s.goto i p).files file = some (material.contents file) := by
      show s.files file = _
      rw [hstored]
      rfl
    rw [Store.read, hfile]
  refine run_alone (goto_self hp _) (congrArg some (hread.trans (goto_goto _ _))) ?_
  have hpem : (s.goto i (.readPem material.certificateDer)).advance digest i (.readPem material.certificateDer) .ok =
      some (s.goto i (.readKey material.certificateDer material.certificatePem)) := by
    rw [Store.advance, Store.readToString, hread]
    simp only [Material.contents, fromUtf8_toUtf8, goto_goto]
  have hkey : (s.goto i (.readKey material.certificateDer material.certificatePem)).advance digest i
      (.readKey material.certificateDer material.certificatePem) .ok =
      some (s.finish i (.ok (some (material.authority digest)))) := by
    rw [Store.advance, Store.readToString, hread]
    simp only [Material.contents, fromUtf8_toUtf8, goto_finish]
    rfl
  refine run_alone (goto_self hp _) hpem ?_
  exact run_alone (goto_self hp _) hkey rfl

/-- A process that alone loads a complete store, or generates one where there is no key. -/
theorem Store.Settled.recovers (h : s.Settled) (hp : s.processes[i]? = some .idle) (material : Material) :
    ∃ (outcomes : List Outcome) (s' : Store) (ca : CertificateAuthority),
      run (Store.step digest) s ((.start .loadOrGenerateWith :: outcomes).map (⟨i, ·⟩)) = some s' ∧
      s'.returned = s.returned ++ [.ok (some ca)] ∧
      ∃ m, (m = material ∨ m ∈ s.generated) ∧ s'.files = m.stored ∧ ca = m.authority digest := by
  rcases h with ⟨hkey, hpublic⟩ | ⟨m, hm, hstored⟩
  · have hdecide : decidePresence .loadOrGenerateWith s.present = .inl (.prepare .generate) := by
      unfold decidePresence Store.present
      rw [hkey, hpublic]
      cases (s.files .certificatePem).isSome <;> rfl
    exact ⟨_, _, _, run_generation hp material hdecide, rfl, material, .inl rfl, rfl, rfl⟩
  · exact ⟨_, _, _, run_loading hp hstored, rfl, m, .inr hm, hstored, rfl⟩

end Recovery

section Contract

/-- What holds of a store wherever its processes are. -/
structure Consistency (digest : List UInt8 → List UInt8) (s : Store) : Prop where
  usable : ∀ ca, .ok (some ca) ∈ s.returned → ∃ m ∈ s.generated, ca = m.authority digest
  recovers : (∀ phase ∈ s.processes, phase.writes = false) → ∀ (i : Nat) (material : Material), s.processes[i]? = some .idle →
    ∃ (outcomes : List Outcome) (s' : Store) (ca : CertificateAuthority),
      run (Store.step digest) s ((.start .loadOrGenerateWith :: outcomes).map (⟨i, ·⟩)) = some s' ∧
      s'.returned = s.returned ++ [.ok (some ca)] ∧
      ∃ m, (m = material ∨ m ∈ s.generated) ∧ s'.files = m.stored ∧ ca = m.authority digest

/-- An empty store, or one that an earlier generation has completed. -/
inductive Initial : Store → Prop
  | empty (processes : Nat) : Initial (.empty processes)
  | complete (material : Material) (processes : Nat) : Initial (.complete material processes)

theorem Initial.inv (h : Initial s) : s.Inv digest := by
  have hidle : ∀ {n : Nat} {phase : Phase}, phase ∈ List.replicate n Phase.idle → phase = .idle := List.eq_of_mem_replicate
  cases h with
  | empty processes =>
    refine ⟨fun phase hphase => ?_, fun {i j p q} hp hq hwrites => ?_, fun _ => .inl ⟨rfl, rfl⟩, nofun, nofun⟩
    · rw [hidle hphase]
      trivial
    · rw [hidle (List.mem_of_getElem? hp)] at hwrites
      cases hwrites
  | complete _ processes =>
    refine ⟨fun phase hphase => ?_, fun {i j p q} hp hq hwrites => ?_, fun _ => .inr ⟨_, List.mem_singleton_self _, rfl⟩, ?_,
      nofun⟩
    · rw [hidle hphase]
      trivial
    · rw [hidle (List.mem_of_getElem? hp)] at hwrites
      cases hwrites
    · intro m hm m' hm' _
      rw [List.mem_singleton.mp hm, List.mem_singleton.mp hm']

theorem Store.Inv.consistency (h : s.Inv digest) : Consistency digest s :=
  ⟨h.returned, fun hnone _ material hp => (h.settled hnone).recovers hp material⟩

/-- From an empty or a complete store, in a run that nothing disturbs. -/
theorem ca_store_consistency {front back : List Action} {s₀ s₁ s₂ : Store} (hinitial : Initial s₀)
    (hundisturbed : Along (Store.step digest) Undisturbed s₀ (front ++ back)) (hfront : run (Store.step digest) s₀ front = some s₁)
    (hback : run (Store.step digest) s₁ back = some s₂) :
    Consistency digest s₂ ∧ ∀ m ∈ s₁.generated, s₁.files = m.stored → s₂.files = m.stored := by
  obtain ⟨hbefore, hafter⟩ := hundisturbed.append hfront
  have hinv : s₁.Inv digest := run_invariant_along (fun hcondition h hstep => h.step hcondition hstep) hinitial.inv hbefore hfront
  refine ⟨?_, ?_⟩
  · exact (run_invariant_along (fun hcondition h hstep => Store.Inv.step h hcondition hstep) hinv hafter hback).consistency
  · intro m hm hstored
    have hstep : ∀ {s : Store} {action : Action} {s' : Store}, Undisturbed s action →
        s.Inv digest ∧ m ∈ s.generated ∧ s.files = m.stored → s.step digest action = some s' →
        s'.Inv digest ∧ m ∈ s'.generated ∧ s'.files = m.stored := by
      rintro s action s' hcondition ⟨h, hmaterial, hfiles⟩ hstep
      refine ⟨h.step hcondition hstep, step_generated hstep hmaterial, ?_⟩
      exact (h.keeps hcondition hstep hmaterial hfiles).trans hfiles
    have hkept := run_invariant_along hstep ⟨hinv, hm, hstored⟩ hafter hback
    exact hkept.2.2

def sampleMaterial : Material := ⟨[1, 2], ['c'], ['k', 'y']⟩

/-- The first two files are written, and the process is killed before the key is. -/
def interrupted : List Action :=
  [.start .loadOrGenerateWith, .ok, .ok, .ok, .ok, .ok, .signed sampleMaterial, .ok, .wrote 1, .wrote 1, .ok, .ok, .wrote 1, .ok,
    .crash].map (⟨0, ·⟩)

theorem quiet {p : Phase} {outcome : Outcome} (hp : s.processes[i]? = some p) (h : p.Undisturbed s outcome) :
    Undisturbed s ⟨i, outcome⟩ := by
  intro phase hphase
  obtain rfl := Option.some.inj (hp.symm.trans hphase)
  exact h

theorem sample_consistency : ∃ s, run (Store.step id) (.empty 2) interrupted = some s ∧ Consistency id s := by
  have hundisturbed : Along (Store.step id) Undisturbed (.empty 2) (interrupted ++ []) := by
    refine .cons (quiet rfl trivial) rfl ?_
    refine .cons (quiet rfl trivial) rfl ?_
    refine .cons (quiet rfl trivial) rfl ?_
    refine .cons (quiet rfl trivial) rfl ?_
    refine .cons (quiet rfl trivial) rfl ?_
    refine .cons (quiet rfl trivial) rfl ?_
    refine .cons (quiet rfl nofun) rfl ?_
    refine .cons (quiet rfl ⟨by decide, by rintro ⟨m, -, hstored⟩; cases congrFun hstored .certificateDer⟩) rfl ?_
    refine .cons (quiet rfl trivial) rfl ?_
    refine .cons (quiet rfl trivial) rfl ?_
    refine .cons (quiet rfl trivial) rfl ?_
    refine .cons (quiet rfl trivial) rfl ?_
    refine .cons (quiet rfl trivial) rfl ?_
    refine .cons (quiet rfl trivial) rfl ?_
    exact .cons (quiet rfl (fun _ => .inl ⟨rfl, rfl⟩)) rfl trivial
  obtain ⟨s, hs⟩ : ∃ s, run (Store.step id) (.empty 2) interrupted = some s := ⟨_, rfl⟩
  exact ⟨s, hs, (ca_store_consistency (.empty 2) hundisturbed hs rfl).1⟩

/-- A process that is killed before it writes the key, and the load of another one. -/
def truncated : List Action :=
  ([.start .loadOrGenerateWith, .ok, .ok, .ok, .ok, .ok, .signed sampleMaterial, .ok, .wrote 2, .ok, .ok, .wrote 1, .ok, .ok, .wrote 1,
    .crash].map (⟨0, ·⟩)) ++ [.start (.load false), .ok, .ok, .ok, .ok, .ok, .ok].map (⟨1, ·⟩)

/-- A key that was cut by a crash is returned by the next load. -/
theorem truncated_key_is_loaded : ¬ ∀ (actions : List Action) (s : Store), run (Store.step id) (.empty 2) actions = some s →
    ∀ ca, .ok (some ca) ∈ s.returned → ∃ m ∈ s.generated, ca = m.authority id := by
  intro hclaim
  obtain ⟨m, hm, heq⟩ := hclaim truncated _ rfl (.fromParts id [1, 2] ['c'] ['k']) (by decide)
  obtain rfl : m = sampleMaterial := List.mem_singleton.mp hm
  exact absurd heq (by decide)

end Contract
end Abyss.Mitm.Ca
