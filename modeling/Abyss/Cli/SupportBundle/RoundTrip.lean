import Abyss.Cli.SupportBundle.ZipArchive

/-! What a written support bundle holds, and what a failure leaves behind. -/
namespace Abyss.Cli.SupportBundle
open Abyss.Text Abyss.Data Abyss.Archive
variable {now : UtcTime} {entries : List (Str × Bytes)}

section Stamp

private theorem toNat_ofNat_u16 {n : Nat} (h : n < 2 ^ 16) : (UInt16.ofNat n).toNat = n := by
  rw [UInt16.toNat_ofNat', Nat.mod_eq_of_lt h]

/-- Two fields of a stamp do not overlap. -/
private theorem or_eq_add {high low k : Nat} (h : low < 2 ^ k) : high * 2 ^ k ||| low = high * 2 ^ k + low := by
  rw [Nat.mul_comm, Nat.two_pow_add_eq_or_of_lt h]

/-- The fields of a DOS time, side by side. -/
theorem dosTime_eq (now : UtcTime) :
    (dosTimestamp now).1.toNat = now.hour * 2 ^ 11 + now.minute * 2 ^ 5 + now.second / 2 := by
  have hhour := now.hour_lt
  have hminute := now.minute_lt
  have hsecond := now.second_lt
  have h11 : now.hour <<< 11 % 2 ^ 16 = now.hour * 2 ^ 11 := by
    rw [Nat.shiftLeft_eq]
    omega
  have h5 : now.minute <<< 5 % 2 ^ 16 = now.minute * 2 ^ 5 := by
    rw [Nat.shiftLeft_eq]
    omega
  have h1 : now.second >>> 1 = now.second / 2 := Nat.shiftRight_eq_div_pow _ _
  simp only [dosTimestamp, UInt16.toNat_or, UInt16.toNat_shiftLeft, UInt16.toNat_shiftRight,
    toNat_ofNat_u16 (show now.hour < 2 ^ 16 by omega), toNat_ofNat_u16 (show now.minute < 2 ^ 16 by omega),
    toNat_ofNat_u16 (show now.second < 2 ^ 16 by omega)]
  change (now.hour <<< 11 % 2 ^ 16 ||| now.minute <<< 5 % 2 ^ 16) ||| now.second >>> 1 = _
  rw [h11, h5, h1, or_eq_add (by omega), show now.hour * 2 ^ 11 + now.minute * 2 ^ 5 =
    (now.hour * 2 ^ 6 + now.minute) * 2 ^ 5 by omega, or_eq_add (by omega)]

theorem dosYear_le (now : UtcTime) : dosYear now ≤ 127 := by
  rw [dosYear]
  omega

/-- The fields of a DOS date, side by side. -/
theorem dosDate_eq (now : UtcTime) :
    (dosTimestamp now).2.toNat = dosYear now * 2 ^ 9 + now.month * 2 ^ 5 + now.day := by
  have hyear := dosYear_le now
  have hmonth := now.month_le
  have hday := now.day_le
  have h9 : dosYear now <<< 9 % 2 ^ 16 = dosYear now * 2 ^ 9 := by
    rw [Nat.shiftLeft_eq]
    omega
  have h5 : now.month <<< 5 % 2 ^ 16 = now.month * 2 ^ 5 := by
    rw [Nat.shiftLeft_eq]
    omega
  simp only [dosTimestamp, UInt16.toNat_or, UInt16.toNat_shiftLeft,
    toNat_ofNat_u16 (show dosYear now < 2 ^ 16 by omega), toNat_ofNat_u16 (show now.month < 2 ^ 16 by omega),
    toNat_ofNat_u16 (show now.day < 2 ^ 16 by omega)]
  change (dosYear now <<< 9 % 2 ^ 16 ||| now.month <<< 5 % 2 ^ 16) ||| now.day = _
  rw [h9, h5, or_eq_add (by omega), show dosYear now * 2 ^ 9 + now.month * 2 ^ 5 =
    (dosYear now * 2 ^ 4 + now.month) * 2 ^ 5 by omega, or_eq_add (by omega)]

end Stamp

/-- The member that an archive holds for an entry. -/
def member (now : UtcTime) (entry : Str × Bytes) : Zip.Member :=
  ⟨toUtf8 entry.1, entry.2, now.hour * 2 ^ 11 + now.minute * 2 ^ 5 + now.second / 2,
    dosYear now * 2 ^ 9 + now.month * 2 ^ 5 + now.day⟩

def members (now : UtcTime) (entries : List (Str × Bytes)) : List Zip.Member := entries.map (member now)

theorem member_time_lt (now : UtcTime) (entry : Str × Bytes) : (member now entry).time < 2 ^ 16 := by
  rw [member, ← dosTime_eq]
  exact UInt16.toNat_lt _

theorem member_date_lt (now : UtcTime) (entry : Str × Bytes) : (member now entry).date < 2 ^ 16 := by
  rw [member, ← dosDate_eq]
  exact UInt16.toNat_lt _

theorem members_concat (done : List (Str × Bytes)) (entry : Str × Bytes) :
    members now (done ++ [entry]) = members now done ++ [member now entry] := by
  rw [members, List.map_append]
  rfl

/-- Every number of the archive fits the field that it is written to. -/
def WithinLimits (now : UtcTime) (entries : List (Str × Bytes)) : Prop :=
  (∀ m ∈ members now entries, m.Fits) ∧ entries.length < 2 ^ 16 ∧
    (Zip.localRecords (members now entries)).length + (Zip.directory 0 (members now entries)).length < 2 ^ 32

theorem WithinLimits.fits (h : WithinLimits now entries) : Zip.Fits (members now entries) :=
  ⟨h.1, by rw [members, List.length_map]; exact h.2.1, Nat.lt_of_le_of_lt (Nat.le_add_right ..) h.2.2,
    Nat.lt_of_le_of_lt (Nat.le_add_left ..) h.2.2⟩

section Passes

theorem crc32_eq (bytes : Bytes) : crc32 bytes = Crc32.checksum bytes := Crc32.foldl_shiftByte bytes

theorem u32TryFrom_ok {n : Nat} {message : String} {value : UInt32} (h : u32TryFrom n message = .ok value) :
    n < 2 ^ 32 ∧ value.toNat = n := by
  unfold u32TryFrom at h
  split at h
  · next hlt =>
    cases h
    exact ⟨hlt, by rw [UInt32.toNat_ofNat', Nat.mod_eq_of_lt hlt]⟩
  · cases h

theorem u16TryFrom_ok {n : Nat} {message : String} {value : UInt16} (h : u16TryFrom n message = .ok value) :
    n < 2 ^ 16 ∧ value.toNat = n := by
  unfold u16TryFrom at h
  split at h
  · next hlt =>
    cases h
    exact ⟨hlt, toNat_ofNat_u16 hlt⟩
  · cases h

theorem appendLocalHeader_eq (archive : Bytes) (entry : Str × Bytes) {size : UInt32} {nameLength : UInt16}
    (hsize : size.toNat = entry.2.length) (hname : nameLength.toNat = (toUtf8 entry.1).length) :
    appendLocalHeader archive (dosTimestamp now) (crc32 entry.2) size nameLength =
      archive ++ putFields (member now entry).localFields := by
  simp only [appendLocalHeader, appendU16, appendU32, Zip.Member.localFields, putFields, List.append_assoc,
    List.append_nil, dosTime_eq, dosDate_eq, hsize, hname, crc32_eq]
  rfl

theorem appendCentralHeader_eq (archive : Bytes) (entry : Str × Bytes) {size offset : UInt32} {nameLength : UInt16}
    {position : Nat} (hsize : size.toNat = entry.2.length) (hname : nameLength.toNat = (toUtf8 entry.1).length)
    (hoffset : offset.toNat = position) :
    appendCentralHeader (dosTimestamp now) archive ⟨toUtf8 entry.1, crc32 entry.2, size, offset, nameLength⟩ =
      archive ++ (member now entry).centralRecord position := by
  simp only [appendCentralHeader, appendU16, appendU32, Zip.Member.centralRecord, Zip.Member.centralFields, putFields,
    List.append_assoc, List.append_nil, dosTime_eq, dosDate_eq, hsize, hname, hoffset, crc32_eq]
  rfl

theorem appendEndRecord_eq (archive : Bytes) {count : UInt16} {size offset : UInt32} :
    appendEndRecord archive count size offset =
      archive ++ putFields (Zip.endFields count.toNat size.toNat offset.toNat) := by
  simp only [appendEndRecord, appendU16, appendU32, Zip.endFields, putFields, List.append_assoc, List.append_nil]
  rfl

theorem directory_concat (offset : Nat) (front : List Zip.Member) (m : Zip.Member) :
    Zip.directory offset (front ++ [m]) =
      Zip.directory offset front ++ m.centralRecord (offset + (Zip.localRecords front).length) := by
  induction front generalizing offset with
  | nil => simp [Zip.directory, Zip.localRecords]
  | cons head front ih =>
    have hlength : (Zip.localRecords (head :: front)).length =
        head.localRecord.length + (Zip.localRecords front).length := by
      rw [Zip.localRecords, List.flatMap_cons, List.length_append, Zip.localRecords]
    rw [List.cons_append, Zip.directory, ih, Zip.directory, List.append_assoc, hlength, Nat.add_assoc]

/-- What the first pass has built of the entries that are behind it. -/
structure Packed (now : UtcTime) (done : List (Str × Bytes)) (archive : Bytes) (centralDirectory : List CentralEntry) :
    Prop where
  archive : archive = Zip.localRecords (members now done)
  count : centralDirectory.length = done.length
  directory : ∀ front, centralDirectory.foldl (appendCentralHeader (dosTimestamp now)) front =
    front ++ Zip.directory 0 (members now done)

/-- A round of the first pass packs one more entry. -/
theorem appendEntry_packed {done : List (Str × Bytes)} {archive archive' : Bytes} {entry : Str × Bytes}
    {centralDirectory centralDirectory' : List CentralEntry} (hpacked : Packed now done archive centralDirectory)
    (h : appendEntry (dosTimestamp now) archive centralDirectory entry = .ok (archive', centralDirectory')) :
    (member now entry).Fits ∧ Packed now (done ++ [entry]) archive' centralDirectory' := by
  unfold appendEntry at h
  cases hsize : u32TryFrom entry.2.length "support file exceeds ZIP limit" with
  | error error => simp [hsize, bind, Except.bind] at h
  | ok size =>
    cases hname : u16TryFrom (toUtf8 entry.1).length "support path exceeds ZIP limit" with
    | error error => simp [hsize, hname, bind, Except.bind] at h
    | ok nameLength =>
      cases hoffset : u32TryFrom archive.length "support archive exceeds ZIP limit" with
      | error error => simp [hsize, hname, hoffset, bind, Except.bind] at h
      | ok offset =>
        simp only [hsize, hname, hoffset, bind, Except.bind, pure, Except.pure, Except.ok.injEq, Prod.mk.injEq] at h
        obtain ⟨rfl, rfl⟩ := h
        obtain ⟨hsizeLt, hsize⟩ := u32TryFrom_ok hsize
        obtain ⟨hnameLt, hname⟩ := u16TryFrom_ok hname
        obtain ⟨-, hoffset⟩ := u32TryFrom_ok hoffset
        refine ⟨⟨hnameLt, hsizeLt, member_time_lt now entry, member_date_lt now entry⟩, ?_, ?_, ?_⟩
        · rw [appendLocalHeader_eq archive entry hsize hname, members_concat, Zip.localRecords, List.flatMap_append,
            ← Zip.localRecords, ← hpacked.archive]
          simp [Zip.Member.localRecord, member]
        · rw [List.length_append, List.length_append, hpacked.count]
          rfl
        · intro front
          rw [List.foldl_append, hpacked.directory, List.foldl_cons, List.foldl_nil,
            appendCentralHeader_eq _ entry hsize hname (hoffset.trans (congrArg List.length hpacked.archive)), members_concat,
            directory_concat, Nat.zero_add, List.append_assoc]

theorem appendEntry_succeeds {archive : Bytes} {entry : Str × Bytes} (centralDirectory : List CentralEntry)
    (hfits : (member now entry).Fits) (harchive : archive.length < 2 ^ 32) :
    ∃ result, appendEntry (dosTimestamp now) archive centralDirectory entry = .ok result := by
  have hname : (toUtf8 entry.1).length < 2 ^ 16 := hfits.1
  have hcontent : entry.2.length < 2 ^ 32 := hfits.2.1
  simp only [appendEntry, u32TryFrom, u16TryFrom, if_pos hname, if_pos hcontent, if_pos harchive]
  exact ⟨_, rfl⟩

/-- The first pass, over the entries that are left. -/
theorem appendEntries_packed {done rest : List (Str × Bytes)} {archive archive' : Bytes}
    {centralDirectory centralDirectory' : List CentralEntry} (hpacked : Packed now done archive centralDirectory)
    (hfits : ∀ m ∈ members now done, m.Fits)
    (h : appendEntries (dosTimestamp now) archive centralDirectory rest = .ok (archive', centralDirectory')) :
    (∀ m ∈ members now (done ++ rest), m.Fits) ∧ Packed now (done ++ rest) archive' centralDirectory' := by
  induction rest generalizing done archive centralDirectory with
  | nil =>
    cases h
    rw [List.append_nil]
    exact ⟨hfits, hpacked⟩
  | cons entry rest ih =>
    cases hentry : appendEntry (dosTimestamp now) archive centralDirectory entry with
    | error error => simp [appendEntries, hentry, bind, Except.bind] at h
    | ok next =>
      obtain ⟨nextArchive, nextDirectory⟩ := next
      simp only [appendEntries, hentry, bind, Except.bind] at h
      obtain ⟨hentryFits, hnext⟩ := appendEntry_packed hpacked hentry
      have hnextFits : ∀ m ∈ members now (done ++ [entry]), m.Fits := by
        rw [members_concat]
        intro m hm
        rcases List.mem_append.mp hm with hm | hm
        · exact hfits m hm
        · rw [List.mem_singleton.mp hm]
          exact hentryFits
      have hrest := ih hnext hnextFits h
      rwa [List.append_assoc] at hrest

theorem appendEntries_succeeds {done rest : List (Str × Bytes)} {archive : Bytes}
    {centralDirectory : List CentralEntry} (hpacked : Packed now done archive centralDirectory)
    (hfits : ∀ entry ∈ rest, (member now entry).Fits)
    (hspace : (Zip.localRecords (members now (done ++ rest))).length < 2 ^ 32) :
    ∃ result, appendEntries (dosTimestamp now) archive centralDirectory rest = .ok result := by
  induction rest generalizing done archive centralDirectory with
  | nil => exact ⟨_, rfl⟩
  | cons entry rest ih =>
    have hlength : archive.length < 2 ^ 32 := by
      rw [hpacked.archive]
      rw [members, List.map_append, Zip.localRecords, List.flatMap_append, List.length_append] at hspace
      exact Nat.lt_of_le_of_lt (Nat.le_add_right ..) hspace
    obtain ⟨next, hentry⟩ := appendEntry_succeeds centralDirectory (hfits entry (List.mem_cons_self ..)) hlength
    obtain ⟨nextArchive, nextDirectory⟩ := next
    obtain ⟨-, hnext⟩ := appendEntry_packed hpacked hentry
    obtain ⟨result, hresult⟩ := ih hnext (fun entry hmem => hfits entry (List.mem_cons_of_mem _ hmem))
      (by rwa [List.append_assoc])
    exact ⟨result, by simp only [appendEntries, hentry, bind, Except.bind, hresult]⟩

theorem packed_nil (now : UtcTime) : Packed now [] [] [] :=
  ⟨rfl, rfl, fun front => (List.append_nil front).symm⟩

/-- An encoded archive is the layout of its members, and nothing in it wraps. -/
theorem archiveBytes_ok {archive : Bytes} (h : archiveBytes now entries = .ok archive) :
    WithinLimits now entries ∧ archive = Zip.layout (members now entries) := by
  cases hpass : appendEntries (dosTimestamp now) [] [] entries with
  | error error => simp [archiveBytes, hpass, bind, Except.bind] at h
  | ok packed =>
    obtain ⟨locals, centralDirectory⟩ := packed
    obtain ⟨hfits, hpacked⟩ := appendEntries_packed (packed_nil now) (fun _ hm => absurd hm List.not_mem_nil) hpass
    rw [List.nil_append] at hfits hpacked
    simp only [archiveBytes, hpass, bind, Except.bind] at h
    rw [hpacked.archive] at h
    cases hoffset : u32TryFrom (Zip.localRecords (members now entries)).length "support archive exceeds ZIP limit" with
    | error error => simp [hoffset] at h
    | ok centralOffset =>
      obtain ⟨-, hoffsetEq⟩ := u32TryFrom_ok hoffset
      rw [hoffset] at h
      simp only [hpacked.directory, centralSizeOf, List.length_append, hoffsetEq, Nat.le_add_right, and_true] at h
      split at h
      · cases h
      · next size hsize =>
        split at hsize
        · next hspace =>
          cases hsize
          cases hcount : u16TryFrom centralDirectory.length "too many support files" with
          | error error => simp [hcount] at h
          | ok entryCount =>
            obtain ⟨hcountLt, hcountEq⟩ := u16TryFrom_ok hcount
            simp only [hcount, pure, Except.pure, Except.ok.injEq] at h
            rw [hpacked.count] at hcountLt hcountEq
            refine ⟨⟨hfits, hcountLt, hspace⟩, ?_⟩
            rw [← h, appendEndRecord_eq, hcountEq, hoffsetEq, Nat.add_sub_cancel_left, UInt32.toNat_ofNat',
              Nat.mod_eq_of_lt (by omega), Zip.layout, List.append_assoc, members, List.length_map]
        · cases hsize

/-- An archive within the limits is encoded. -/
theorem archiveBytes_succeeds (h : WithinLimits now entries) : ∃ archive, archiveBytes now entries = .ok archive := by
  obtain ⟨hfits, hcount, hspace⟩ := h
  have hrecords : (Zip.localRecords (members now entries)).length < 2 ^ 32 := by omega
  obtain ⟨packed, hpass⟩ := appendEntries_succeeds (packed_nil now)
    (fun entry hmem => hfits _ (List.mem_map_of_mem hmem)) (by rwa [List.nil_append])
  obtain ⟨locals, centralDirectory⟩ := packed
  obtain ⟨-, hpacked⟩ := appendEntries_packed (packed_nil now) (fun _ hm => absurd hm List.not_mem_nil) hpass
  rw [List.nil_append] at hpacked
  have hoffset : (UInt32.ofNat (Zip.localRecords (members now entries)).length).toNat =
      (Zip.localRecords (members now entries)).length := by rw [UInt32.toNat_ofNat', Nat.mod_eq_of_lt hrecords]
  simp only [archiveBytes, hpass, bind, Except.bind, hpacked.archive, u32TryFrom, if_pos hrecords, hpacked.directory,
    centralSizeOf, List.length_append, hoffset, Nat.le_add_right, and_true, if_pos hspace, u16TryFrom, hpacked.count,
    if_pos hcount]
  exact ⟨_, rfl⟩

end Passes

section Bundle
variable {destination : FilePath} {pid : Nat} {files : Files}

/-- A failure leaves the destination as it was; otherwise the destination is an archive that has the entries for its
members, in order, with nothing wrapped. -/
def RoundTrips (faults : Faults) (now : UtcTime) (pid : Nat) (entries : List (Str × Bytes)) (destination : FilePath)
    (files : Files) : Prop :=
  match writeTo faults now pid entries destination files with
  | (.error _, after) => after destination = files destination
  | (.ok _, after) => ∃ archive, after destination = some archive ∧ archive = Zip.layout (members now entries) ∧
      Zip.Fits (members now entries) ∧
      Zip.read archive = some (entries.map fun entry => (toUtf8 entry.1, entry.2))

theorem read_members (h : WithinLimits now entries) :
    Zip.read (Zip.layout (members now entries)) = some (entries.map fun entry => (toUtf8 entry.1, entry.2)) := by
  rw [Zip.read_layout h.fits, members, List.map_map]
  rfl

/-- A file stored beside the destination takes its place at once or not at all. -/
theorem store_beside (faults : Faults) {temporary : FilePath} (archive : Bytes) (files : Files)
    (h : temporary ≠ destination) :
    (∃ error after, store faults temporary destination archive files = (.error error, after) ∧
      after destination = files destination) ∨
    ∃ after, store faults temporary destination archive files = (.ok (), after) ∧ after destination = some archive := by
  have hupdate : ∀ content, Function.update files temporary content destination = files destination :=
    fun content => Function.update_of_ne h.symm content files
  unfold store
  split
  · exact .inl ⟨_, _, rfl, rfl⟩
  · split
    · exact .inl ⟨_, _, rfl, rfl⟩
    · split
      · exact .inl ⟨_, _, rfl, hupdate _⟩
      · split
        · exact .inl ⟨_, _, rfl, hupdate _⟩
        · split
          · exact .inl ⟨_, _, rfl, hupdate _⟩
          · refine .inr ⟨_, rfl, ?_⟩
            rw [rename, if_neg h, Function.update_of_ne h.symm, Function.update_self, Function.update_self]

theorem removeFile_beside (faults : Faults) {path : FilePath} (h : path ≠ destination) :
    removeFile faults path files destination = files destination := by
  unfold removeFile
  split
  · rfl
  · exact Function.update_of_ne h.symm _ _

theorem roundTrips_of_beside (faults : Faults) (h : destination.temporary pid ≠ destination) :
    RoundTrips faults now pid entries destination files := by
  unfold RoundTrips writeTo
  cases hdirectory : (if destination.parent = [] then none else faults.createDirectory) with
  | some error => rfl
  | none =>
    cases harchive : archiveBytes now entries with
    | error error =>
      simp only [encodeAndStore, harchive]
      exact removeFile_beside faults h
    | ok archive =>
      obtain ⟨hlimits, hlayout⟩ := archiveBytes_ok harchive
      simp only [encodeAndStore, harchive]
      rcases store_beside faults archive files h with ⟨error, after, hstore, hafter⟩ | ⟨after, hstore, hafter⟩
      · rw [hstore]
        exact (removeFile_beside faults h).trans hafter
      · rw [hstore]
        exact ⟨archive, hafter, hlayout, hlimits.fits, hlayout ▸ read_members hlimits⟩

theorem roundTrips_of_refused (faults : Faults) (hfile : files destination = none) (h : ¬ WithinLimits now entries) :
    RoundTrips faults now pid entries destination files := by
  unfold RoundTrips writeTo
  cases hdirectory : (if destination.parent = [] then none else faults.createDirectory) with
  | some error => rfl
  | none =>
    cases harchive : archiveBytes now entries with
    | ok archive => exact absurd (archiveBytes_ok harchive).1 h
    | error error =>
      simp only [encodeAndStore, harchive]
      show removeFile faults (destination.temporary pid) files destination = files destination
      unfold removeFile
      split
      · rfl
      · by_cases hself : destination = destination.temporary pid
        · rw [← hself, Function.update_self, hfile]
        · exact Function.update_of_ne hself _ _

/-- No call to the system fails. -/
def Faults.none : Faults := ⟨.none, .none, .none, .none, .none, false⟩

/-- The disk fills up, and the file that was begun cannot be removed. -/
def Faults.stuck : Faults := ⟨.none, .none, some (⟨.other, "No space left on device"⟩, 0), .none, .none, true⟩

theorem writeTo_error {faults : Faults} (hdirectory : faults.createDirectory = none) {error : IoError} {after : Files}
    (h : encodeAndStore faults now (destination.temporary pid) destination entries files = (.error error, after)) :
    ∃ reported, writeTo faults now pid entries destination files =
      (.error reported, removeFile faults (destination.temporary pid) after) := by
  unfold writeTo
  rw [hdirectory, ite_self, h]
  exact ⟨_, rfl⟩

/-- A destination that is its own temporary file is removed when it exists. -/
theorem not_roundTrips_of_present (hself : destination.temporary pid = destination) {content : Bytes}
    (hfile : files destination = some content) : ¬ RoundTrips Faults.none now pid entries destination files := by
  have hencode : ∃ error, encodeAndStore Faults.none now (destination.temporary pid) destination entries files =
      (.error error, files) := by
    rw [hself]
    unfold encodeAndStore
    split
    · exact ⟨_, rfl⟩
    · exact ⟨_, if_pos (by rw [hfile]; rfl)⟩
  obtain ⟨error, hencode⟩ := hencode
  obtain ⟨reported, hwrite⟩ := writeTo_error rfl hencode
  intro h
  have hremoved : removeFile Faults.none (destination.temporary pid) files destination = none := by
    rw [hself]
    exact Function.update_self ..
  unfold RoundTrips at h
  rw [hwrite] at h
  exact absurd (hremoved.symm.trans (h.trans hfile)) (Option.some_ne_none _).symm

/-- A destination that is its own temporary file is begun in place. -/
theorem not_roundTrips_of_absent (hself : destination.temporary pid = destination) (hfile : files destination = none)
    (hlimits : WithinLimits now entries) : ¬ RoundTrips Faults.stuck now pid entries destination files := by
  obtain ⟨archive, harchive⟩ := archiveBytes_succeeds hlimits
  have hencode : encodeAndStore Faults.stuck now (destination.temporary pid) destination entries files =
      (.error ⟨.other, "No space left on device"⟩, Function.update files destination (some [])) := by
    simp only [hself, encodeAndStore, harchive, store, hfile]
    rfl
  obtain ⟨reported, hwrite⟩ := writeTo_error rfl hencode
  intro h
  have hbegun : removeFile Faults.stuck (destination.temporary pid) (Function.update files destination (some []))
      destination = some [] := Function.update_self ..
  unfold RoundTrips at h
  rw [hwrite] at h
  exact absurd (hbegun.symm.trans (h.trans hfile)) (Option.some_ne_none _)

/-- A bundle is written whole or not at all, whatever fails, exactly when it is not begun in place of its destination. -/
theorem roundTrips_iff (now : UtcTime) (pid : Nat) (entries : List (Str × Bytes)) (destination : FilePath)
    (files : Files) : (∀ faults, RoundTrips faults now pid entries destination files) ↔
      destination.temporary pid ≠ destination ∨ files destination = none ∧ ¬ WithinLimits now entries := by
  constructor
  · intro h
    by_contra hsafe
    obtain ⟨hself, hpresent⟩ := not_or.mp hsafe
    have hself := not_not.mp hself
    cases hfile : files destination with
    | some content => exact not_roundTrips_of_present hself hfile (h Faults.none)
    | none => exact not_roundTrips_of_absent hself hfile (not_not.mp (not_and.mp hpresent hfile)) (h Faults.stuck)
  · intro h faults
    rcases h with hbeside | ⟨hfile, hlimits⟩
    · exact roundTrips_of_beside faults hbeside
    · exact roundTrips_of_refused faults hfile hlimits

def FilePath.supportTmp : FilePath := ⟨[], "support".toList, some "tmp-4242".toList⟩

/-- Process 4242 is asked for a bundle at `support.tmp-4242`, where there is a file already. -/
theorem existing_removed : ¬ RoundTrips Faults.none ⟨2026, 1, 1, 0, 0, 0, by decide, by decide, by decide, by decide, by decide⟩
    4242 [] FilePath.supportTmp (Function.update (fun _ => none) FilePath.supportTmp (some [1])) := by
  exact not_roundTrips_of_present (by decide) (Function.update_self ..)

end Bundle
end Abyss.Cli.SupportBundle
