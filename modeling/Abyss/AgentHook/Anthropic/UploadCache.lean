import Abyss.AgentHook.Event.Normalizer
import Abyss.Data.HashMap

/-! Claude Web upload correlation: the cache of uploaded images and the images an event takes from
it. -/
namespace Abyss.AgentHook.Anthropic
open Abyss.Text Abyss.Data

section Model

/-- `MAX_IMAGE_ATTACHMENTS_PER_EVENT`. -/
def maxImageAttachmentsPerEvent : Nat := 8

/-- `MAX_IMAGE_ATTACHMENT_BYTES_PER_EVENT`. -/
def maxImageAttachmentBytesPerEvent : Nat := 8 * 1024 * 1024

def maxCachedUploads : Nat := 64

def maxCachedUploadBytes : Nat := 32 * 1024 * 1024

/-- `UPLOAD_TTL`, in nanoseconds. -/
def uploadTtl : Nat := 30 * 60 * 1000000000

/-- `usize::MAX`. -/
def usizeMax : Nat := 2 ^ 64 - 1

structure UploadKey where
  sessionId : Str
  fileUuid : Str
  deriving DecidableEq

/-- A cached image and the clock reading of its upload, in nanoseconds. -/
structure CachedUpload where
  image : ParsedImageAttachment
  capturedAt : Nat

def CachedUpload.byteSize (upload : CachedUpload) : Nat := upload.image.bytes.length

/-- A parsed upload; a vector holds at most `isize::MAX` bytes. -/
structure ParsedUpload where
  sessionId : Str
  fileUuid : Str
  image : ParsedImageAttachment
  inMemory : image.bytes.length < 2 ^ 63

def ParsedUpload.key (upload : ParsedUpload) : UploadKey := ⟨upload.sessionId, upload.fileUuid⟩

/-- The cache, with a ghost that remembers whether a saturating operation ever saturated. -/
structure ClaudeWebUploadCache where
  uploads : HashMap UploadKey CachedUpload
  insertionOrder : List UploadKey
  cachedBytes : Nat
  saturated : Bool

namespace ClaudeWebUploadCache

def empty : ClaudeWebUploadCache := ⟨∅, [], 0, false⟩

/-- `cached_bytes.saturating_add`. -/
def addBytes (cache : ClaudeWebUploadCache) (n : Nat) : ClaudeWebUploadCache :=
  { cache with
    cachedBytes := min (cache.cachedBytes + n) usizeMax
    saturated := cache.saturated || decide (usizeMax < cache.cachedBytes + n) }

/-- `cached_bytes.saturating_sub`. -/
def subBytes (cache : ClaudeWebUploadCache) (n : Nat) : ClaudeWebUploadCache :=
  { cache with
    cachedBytes := cache.cachedBytes - n
    saturated := cache.saturated || decide (cache.cachedBytes < n) }

def remove (cache : ClaudeWebUploadCache) (key : UploadKey) : ClaudeWebUploadCache :=
  match cache.uploads.lookup key with
  | some upload => { cache with uploads := cache.uploads.erase key }.subBytes upload.byteSize
  | none => cache

/-- Pop front keys and remove their uploads while the condition holds. -/
def evictWhile (again : ClaudeWebUploadCache → UploadKey → Bool) :
    List UploadKey → ClaudeWebUploadCache → ClaudeWebUploadCache
  | [], cache => cache
  | key :: rest, cache =>
    if again cache key then evictWhile again rest ({ cache with insertionOrder := rest }.remove key) else cache

/-- Whether a front key may go: it has no upload, or its upload is as old as the TTL. -/
def expired (now : Nat) (cache : ClaudeWebUploadCache) (key : UploadKey) : Bool :=
  match cache.uploads.lookup key with
  | none => true
  | some upload => decide (upload.capturedAt ≤ now ∧ uploadTtl ≤ now - upload.capturedAt)

def pruneExpired (cache : ClaudeWebUploadCache) (now : Nat) : ClaudeWebUploadCache :=
  evictWhile (expired now) cache.insertionOrder cache

def overCapacity (cache : ClaudeWebUploadCache) (_ : UploadKey) : Bool :=
  decide (maxCachedUploads < cache.uploads.size ∨ maxCachedUploadBytes < cache.cachedBytes)

def enforceCapacity (cache : ClaudeWebUploadCache) : ClaudeWebUploadCache :=
  evictWhile overCapacity cache.insertionOrder cache

/-- The cache without an earlier upload under the same key. -/
def forget (cache : ClaudeWebUploadCache) (key : UploadKey) : ClaudeWebUploadCache :=
  match cache.uploads.lookup key with
  | some previous =>
    { cache with
      uploads := cache.uploads.erase key
      insertionOrder := cache.insertionOrder.filter (fun candidate => candidate ≠ key) }.subBytes previous.byteSize
  | none => cache

/-- The cache with the upload at the back of the queue, before eviction. -/
def pushBack (cache : ClaudeWebUploadCache) (upload : ParsedUpload) (capturedAt : Nat) : ClaudeWebUploadCache :=
  let cache := cache.addBytes upload.image.bytes.length
  { cache with
    insertionOrder := cache.insertionOrder ++ [upload.key]
    uploads := cache.uploads.insert upload.key ⟨upload.image, capturedAt⟩ }

def insert (cache : ClaudeWebUploadCache) (upload : ParsedUpload) (capturedAt : Nat) : ClaudeWebUploadCache :=
  ((cache.forget upload.key).pushBack upload capturedAt).enforceCapacity

end ClaudeWebUploadCache

/-- The part of a parsed completion that takes part in upload correlation. -/
structure ParsedClaudeWebExchange where
  sessionId : Str
  requestFileUuids : List Str
  requestImages : List ParsedImageAttachment

/-- Record a successful image upload; an exchange that is none changes nothing. -/
def recordUpload (cache : ClaudeWebUploadCache) (upload : Option ParsedUpload) (now : Nat) : ClaudeWebUploadCache :=
  match upload with
  | some upload => (cache.pruneExpired now).insert upload now
  | none => cache

/-- The cached uploads that the file ids of a completion name, in reference order. -/
def referencedUploads (cache : ClaudeWebUploadCache) (parsed : ParsedClaudeWebExchange) : List (Str × CachedUpload) :=
  parsed.requestFileUuids.filterMap (fun fileUuid =>
    (cache.uploads.lookup ⟨parsed.sessionId, fileUuid⟩).map (fileUuid, ·))

/-- The referenced uploads that fit the event, each id once. -/
@[grind =] def selectUploads (count decodedBytes : Nat) (seen : List Str) : List (Str × CachedUpload) → List (Str × CachedUpload)
  | [] => []
  | (fileUuid, upload) :: rest =>
    if maxImageAttachmentsPerEvent ≤ count ∨ maxImageAttachmentBytesPerEvent ≤ decodedBytes ∨ fileUuid ∈ seen then
      selectUploads count decodedBytes seen rest
    else if maxImageAttachmentBytesPerEvent < min (decodedBytes + upload.byteSize) usizeMax then
      selectUploads count decodedBytes (fileUuid :: seen) rest
    else (fileUuid, upload) ::
      selectUploads (count + 1) (min (decodedBytes + upload.byteSize) usizeMax) (fileUuid :: seen) rest

/-- The decoded bytes of an event's images, as a saturating sum. -/
def decodedBytes (images : List ParsedImageAttachment) : Nat :=
  images.foldl (fun sum image => min (sum + image.bytes.length) usizeMax) 0

/-- The uploads that a completion takes from the cache. -/
def attachedUploads (cache : ClaudeWebUploadCache) (parsed : ParsedClaudeWebExchange) (now : Nat) :
    List (Str × CachedUpload) :=
  selectUploads parsed.requestImages.length (decodedBytes parsed.requestImages) []
    (referencedUploads (cache.pruneExpired now) parsed)

/-- Resolve the file ids of a completion into image attachments. -/
def attachReferencedImages (cache : ClaudeWebUploadCache) (parsed : ParsedClaudeWebExchange) (now : Nat) :
    ClaudeWebUploadCache × ParsedClaudeWebExchange :=
  (cache.pruneExpired now,
    { parsed with
      requestImages := parsed.requestImages ++ (attachedUploads cache parsed now).map (fun attached => attached.2.image) })

end Model

namespace ClaudeWebUploadCache

section Consistency

/-- The bytes of the cached images. -/
def bytes (cache : ClaudeWebUploadCache) : Nat := HashMap.total CachedUpload.byteSize cache.uploads

/-- The queue names each cached key once, and the counter is the sum of the cached sizes. -/
structure Consistent (cache : ClaudeWebUploadCache) : Prop where
  nodup : cache.insertionOrder.Nodup
  keys : ∀ key, key ∈ cache.insertionOrder ↔ key ∈ cache.uploads
  counted : cache.cachedBytes = cache.bytes
  exact : cache.saturated = false

/-- Every upload of one cache is an upload of another, which counts no fewer bytes. -/
structure Within (cache cache' : ClaudeWebUploadCache) : Prop where
  lookup : ∀ key upload, cache.uploads.lookup key = some upload → cache'.uploads.lookup key = some upload
  counter : cache.cachedBytes ≤ cache'.cachedBytes

theorem Within.refl (cache : ClaudeWebUploadCache) : cache.Within cache := ⟨fun _ _ h => h, Nat.le_refl _⟩

theorem Within.trans {a b c : ClaudeWebUploadCache} (hab : a.Within b) (hbc : b.Within c) : a.Within c :=
  ⟨fun key upload h => hbc.lookup key upload (hab.lookup key upload h), Nat.le_trans hab.counter hbc.counter⟩

theorem empty_consistent : empty.Consistent := by
  refine ⟨List.nodup_nil, fun key => ?_, rfl, rfl⟩
  exact iff_of_false List.not_mem_nil (AList.notMem_empty key)

/-- Taking a key out of the queue and the map keeps the cache consistent. -/
theorem Consistent.erase {cache : ClaudeWebUploadCache} (h : cache.Consistent) {key : UploadKey} {upload : CachedUpload}
    (hlookup : cache.uploads.lookup key = some upload) {order : List UploadKey} (hnodup : order.Nodup)
    (horder : ∀ other, other ∈ order ↔ other ≠ key ∧ other ∈ cache.insertionOrder) :
    ({ cache with uploads := cache.uploads.erase key, insertionOrder := order }.subBytes upload.byteSize).Consistent := by
  have htotal : upload.byteSize + HashMap.total CachedUpload.byteSize (cache.uploads.erase key) = cache.bytes :=
    HashMap.total_erase hlookup
  refine ⟨hnodup, fun other => ?_, ?_, ?_⟩
  · change other ∈ order ↔ other ∈ cache.uploads.erase key
    rw [horder, h.keys, AList.mem_erase]
  · change cache.cachedBytes - upload.byteSize = HashMap.total CachedUpload.byteSize (cache.uploads.erase key)
    rw [h.counted, ← htotal]
    omega
  · change (cache.saturated || decide (cache.cachedBytes < upload.byteSize)) = false
    rw [h.exact, h.counted, ← htotal]
    simp

theorem within_erase {cache : ClaudeWebUploadCache} {key : UploadKey} {order : List UploadKey} {n : Nat} :
    ({ cache with uploads := cache.uploads.erase key, insertionOrder := order }.subBytes n).Within cache := by
  refine ⟨fun other upload hlookup => ?_, Nat.sub_le _ _⟩
  change (cache.uploads.erase key).lookup other = some upload at hlookup
  by_cases hkey : other = key
  · rw [hkey, AList.lookup_erase] at hlookup
    cases hlookup
  · rwa [AList.lookup_erase_ne hkey] at hlookup

/-- One pass of an eviction loop. -/
theorem Consistent.popFront {cache : ClaudeWebUploadCache} (h : cache.Consistent) {key : UploadKey}
    {rest : List UploadKey} (horder : cache.insertionOrder = key :: rest) :
    ({ cache with insertionOrder := rest }.remove key).Consistent ∧
      ({ cache with insertionOrder := rest }.remove key).insertionOrder = rest ∧
      ({ cache with insertionOrder := rest }.remove key).Within cache := by
  have hnodup := h.nodup
  rw [horder, List.nodup_cons] at hnodup
  have hmem : key ∈ cache.uploads := (h.keys key).mp (by rw [horder]; exact List.mem_cons_self)
  obtain ⟨upload, hlookup⟩ := Option.isSome_iff_exists.mp (AList.lookup_isSome.mpr hmem)
  have hremove : { cache with insertionOrder := rest }.remove key =
      { cache with uploads := cache.uploads.erase key, insertionOrder := rest }.subBytes upload.byteSize := by
    simp only [remove, hlookup]
  rw [hremove]
  refine ⟨h.erase hlookup hnodup.2 (fun other => ?_), rfl, within_erase⟩
  rw [horder, List.mem_cons]
  constructor
  · intro hother
    exact ⟨fun heq => hnodup.1 (heq ▸ hother), .inr hother⟩
  · rintro ⟨hne, heq | hother⟩
    · exact absurd heq hne
    · exact hother

/-- What an eviction loop leaves: a consistent cache whose queue is a tail of the old one and on
which the loop would stop. -/
theorem evictWhile_spec (again : ClaudeWebUploadCache → UploadKey → Bool) (order : List UploadKey)
    {cache : ClaudeWebUploadCache} (h : cache.Consistent) (horder : cache.insertionOrder = order) :
    (evictWhile again order cache).Consistent ∧ (evictWhile again order cache).insertionOrder <:+ order ∧
      (evictWhile again order cache).Within cache ∧
      ∀ key rest, (evictWhile again order cache).insertionOrder = key :: rest →
        again (evictWhile again order cache) key = false := by
  induction order generalizing cache with
  | nil =>
    refine ⟨h, by simp only [evictWhile, horder, List.suffix_rfl], .refl cache, fun key rest heq => ?_⟩
    rw [evictWhile, horder] at heq
    cases heq
  | cons key rest ih =>
    rw [evictWhile]
    by_cases hagain : again cache key = true
    · obtain ⟨hnext, hnextOrder, hwithin⟩ := h.popFront horder
      obtain ⟨hconsistent, hsuffix, hkept, hstop⟩ := ih hnext hnextOrder
      rw [if_pos hagain]
      exact ⟨hconsistent, hsuffix.trans (List.suffix_cons key rest), hkept.trans hwithin, hstop⟩
    · rw [if_neg hagain]
      refine ⟨h, by simp only [horder, List.suffix_rfl], .refl cache, fun key' rest' heq => ?_⟩
      rw [horder] at heq
      cases heq
      exact Bool.eq_false_iff.mpr hagain

theorem pruneExpired_spec {cache : ClaudeWebUploadCache} (h : cache.Consistent) (now : Nat) :
    (cache.pruneExpired now).Consistent ∧ (cache.pruneExpired now).insertionOrder <:+ cache.insertionOrder ∧
      (cache.pruneExpired now).Within cache ∧
      ∀ key rest, (cache.pruneExpired now).insertionOrder = key :: rest →
        expired now (cache.pruneExpired now) key = false :=
  evictWhile_spec (expired now) _ h rfl

/-- A queue that ends with a key on which the loop stops keeps that key. -/
theorem mem_evictWhile (again : ClaudeWebUploadCache → UploadKey → Bool) (front : List UploadKey) {last : UploadKey}
    {cache : ClaudeWebUploadCache} (h : cache.Consistent) (horder : cache.insertionOrder = front ++ [last])
    (hstop : ∀ cache' : ClaudeWebUploadCache, cache'.Consistent → cache'.Within cache → cache'.insertionOrder = [last] →
      again cache' last = false) :
    last ∈ (evictWhile again (front ++ [last]) cache).insertionOrder := by
  induction front generalizing cache with
  | nil =>
    rw [List.nil_append] at horder ⊢
    rw [evictWhile, if_neg (by simp [hstop cache h (.refl cache) horder]), horder]
    exact List.mem_singleton_self last
  | cons key front ih =>
    rw [List.cons_append, evictWhile]
    by_cases hagain : again cache key = true
    · obtain ⟨hnext, hnextOrder, hwithin⟩ := h.popFront horder
      rw [if_pos hagain]
      exact ih hnext hnextOrder (fun cache' hc' hw' => hstop cache' hc' (hw'.trans hwithin))
    · rw [if_neg hagain, horder]
      simp

end Consistency

section Bounds

/-- A consistent cache within its two limits. -/
structure Bounded (cache : ClaudeWebUploadCache) : Prop extends cache.Consistent where
  count : cache.uploads.size ≤ maxCachedUploads
  budget : cache.cachedBytes ≤ maxCachedUploadBytes

theorem Consistent.size_eq {cache : ClaudeWebUploadCache} (h : cache.Consistent) :
    cache.uploads.size = cache.insertionOrder.length := HashMap.size_eq_length h.nodup h.keys

theorem Consistent.forget {cache : ClaudeWebUploadCache} (h : cache.Consistent) (key : UploadKey) :
    (cache.forget key).Consistent ∧ key ∉ (cache.forget key).uploads ∧ (cache.forget key).Within cache ∧
      (cache.forget key).insertionOrder = cache.insertionOrder.filter (fun candidate => candidate ≠ key) := by
  unfold ClaudeWebUploadCache.forget
  split
  · rename_i previous hlookup
    refine ⟨h.erase hlookup (h.nodup.filter _) (fun other => ?_), ?_, within_erase, rfl⟩
    · simp [and_comm]
    · change key ∉ cache.uploads.erase key
      rw [AList.mem_erase]
      exact fun hmem => hmem.1 rfl
  · rename_i hlookup
    have hkey : key ∉ cache.uploads := AList.lookup_eq_none.mp hlookup
    refine ⟨h, hkey, .refl cache, ?_⟩
    symm
    apply List.filter_eq_self.mpr
    intro other hother
    simp only [decide_eq_true_eq]
    rintro rfl
    exact hkey ((h.keys other).mp hother)

theorem Consistent.pushBack {cache : ClaudeWebUploadCache} (h : cache.Consistent) {upload : ParsedUpload}
    (hkey : upload.key ∉ cache.uploads) (hbudget : cache.cachedBytes ≤ maxCachedUploadBytes) (capturedAt : Nat) :
    (cache.pushBack upload capturedAt).Consistent := by
  have hfits : cache.cachedBytes + upload.image.bytes.length ≤ usizeMax := by
    have hsize := upload.inMemory
    unfold usizeMax maxCachedUploadBytes at *
    omega
  refine ⟨?_, fun key => ?_, ?_, ?_⟩
  · change (cache.insertionOrder ++ [upload.key]).Nodup
    rw [List.nodup_append]
    refine ⟨h.nodup, List.nodup_singleton _, ?_⟩
    rintro key hmem last hlast rfl
    rw [List.mem_singleton] at hlast
    exact hkey ((h.keys upload.key).mp (hlast ▸ hmem))
  · change key ∈ cache.insertionOrder ++ [upload.key] ↔ key ∈ cache.uploads.insert upload.key _
    rw [List.mem_append, List.mem_singleton, h.keys, AList.mem_insert, or_comm]
  · change min (cache.cachedBytes + upload.image.bytes.length) usizeMax =
      HashMap.total CachedUpload.byteSize (cache.uploads.insert upload.key ⟨upload.image, capturedAt⟩)
    rw [HashMap.total_insert hkey, Nat.min_eq_left hfits, h.counted, Nat.add_comm]
    rfl
  · change (cache.saturated || decide (usizeMax < cache.cachedBytes + upload.image.bytes.length)) = false
    rw [h.exact, decide_eq_false (by omega), Bool.or_false]

theorem Consistent.of_order_nil {cache : ClaudeWebUploadCache} (h : cache.Consistent) (horder : cache.insertionOrder = []) :
    cache.uploads.size = 0 ∧ cache.cachedBytes = 0 := by
  have hsize : cache.uploads.size = 0 := by rw [h.size_eq, horder]; rfl
  exact ⟨hsize, by rw [h.counted, bytes, HashMap.total_of_size_eq_zero hsize]⟩

theorem Consistent.enforceCapacity {cache : ClaudeWebUploadCache} (h : cache.Consistent) : cache.enforceCapacity.Bounded := by
  obtain ⟨hconsistent, _, _, hstop⟩ := evictWhile_spec overCapacity cache.insertionOrder h rfl
  change cache.enforceCapacity.Consistent at hconsistent
  have hlimits : cache.enforceCapacity.uploads.size ≤ maxCachedUploads ∧
      cache.enforceCapacity.cachedBytes ≤ maxCachedUploadBytes := by
    cases horder : cache.enforceCapacity.insertionOrder with
    | nil =>
      obtain ⟨hsize, hbytes⟩ := hconsistent.of_order_nil horder
      rw [hsize, hbytes]
      exact ⟨Nat.zero_le _, Nat.zero_le _⟩
    | cons key rest =>
      have hover := hstop key rest horder
      simp only [overCapacity, decide_eq_false_iff_not, not_or, Nat.not_lt] at hover
      exact hover
  exact ⟨hconsistent, hlimits.1, hlimits.2⟩

theorem Bounded.pruneExpired {cache : ClaudeWebUploadCache} (h : cache.Bounded) (now : Nat) :
    (cache.pruneExpired now).Bounded := by
  obtain ⟨hconsistent, hsuffix, hwithin, _⟩ := pruneExpired_spec h.toConsistent now
  refine ⟨hconsistent, ?_, Nat.le_trans hwithin.counter h.budget⟩
  rw [hconsistent.size_eq]
  exact Nat.le_trans hsuffix.length_le (h.toConsistent.size_eq ▸ h.count)

/-- One upload that fits the budget is within capacity. -/
theorem Consistent.fits_singleton {cache : ClaudeWebUploadCache} (h : cache.Consistent) {key : UploadKey}
    {upload : CachedUpload} (horder : cache.insertionOrder = [key]) (hlookup : cache.uploads.lookup key = some upload)
    (hfits : upload.byteSize ≤ maxCachedUploadBytes) : overCapacity cache key = false := by
  have hsize : cache.uploads.size = 1 := by rw [h.size_eq, horder]; rfl
  have hrest : HashMap.size (cache.uploads.erase key) = 0 := by
    apply HashMap.size_eq_length List.nodup_nil
    intro other
    rw [AList.mem_erase, ← h.keys, horder, List.mem_singleton]
    simp
  have htotal : upload.byteSize + HashMap.total CachedUpload.byteSize (cache.uploads.erase key) =
      HashMap.total CachedUpload.byteSize cache.uploads := HashMap.total_erase hlookup
  rw [HashMap.total_of_size_eq_zero hrest, Nat.add_zero] at htotal
  rw [overCapacity, h.counted, bytes, ← htotal, hsize]
  simp [maxCachedUploads, hfits]

/-- Inserting keeps the limits, adds only the new upload, and keeps it when it fits the budget. -/
theorem Bounded.insert {cache : ClaudeWebUploadCache} (h : cache.Bounded) (upload : ParsedUpload) (capturedAt : Nat) :
    (cache.insert upload capturedAt).Bounded ∧
      (∀ key cached, (cache.insert upload capturedAt).uploads.lookup key = some cached →
        (key = upload.key ∧ cached = ⟨upload.image, capturedAt⟩) ∨ cache.uploads.lookup key = some cached) ∧
      (upload.image.bytes.length ≤ maxCachedUploadBytes →
        (cache.insert upload capturedAt).uploads.lookup upload.key = some ⟨upload.image, capturedAt⟩) := by
  obtain ⟨hforget, hkey, hforgetWithin, _⟩ := h.toConsistent.forget upload.key
  have hpush := hforget.pushBack hkey (Nat.le_trans hforgetWithin.counter h.budget) capturedAt
  have hpushed : ((cache.forget upload.key).pushBack upload capturedAt).uploads.lookup upload.key =
      some ⟨upload.image, capturedAt⟩ := AList.lookup_insert _
  obtain ⟨_, _, hwithin, _⟩ := evictWhile_spec overCapacity _ hpush rfl
  refine ⟨hpush.enforceCapacity, ?_, ?_⟩
  · intro key cached hlookup
    have hbefore := hwithin.lookup key cached hlookup
    by_cases heq : key = upload.key
    · rw [heq, hpushed] at hbefore
      exact .inl ⟨heq, (Option.some.inj hbefore).symm⟩
    · right
      apply hforgetWithin.lookup key cached
      rwa [ClaudeWebUploadCache.pushBack, AList.lookup_insert_ne heq] at hbefore
  · intro hfits
    have hmem := mem_evictWhile overCapacity (cache.forget upload.key).insertionOrder hpush rfl (by
      intro cache' hconsistent' hwithin' horder'
      have hin' := (hconsistent'.keys upload.key).mp (by rw [horder']; exact List.mem_singleton_self _)
      obtain ⟨cached, hcached⟩ := Option.isSome_iff_exists.mp (AList.lookup_isSome.mpr hin')
      have hbefore := hwithin'.lookup upload.key cached hcached
      obtain rfl := Option.some.inj (hpushed.symm.trans hbefore)
      exact hconsistent'.fits_singleton horder' hcached hfits)
    have hin := (hpush.enforceCapacity.keys upload.key).mp hmem
    obtain ⟨cached, hcached⟩ := Option.isSome_iff_exists.mp (AList.lookup_isSome.mpr hin)
    have hbefore := hwithin.lookup upload.key cached hcached
    rw [hpushed] at hbefore
    rw [Option.some.inj hbefore]
    exact hcached

end Bounds
end ClaudeWebUploadCache

section Selection

/-- The decoded bytes of some uploads. -/
def uploadBytes (uploads : List (Str × CachedUpload)) : Nat := (uploads.map (fun upload => upload.2.byteSize)).sum

theorem selectUploads_sublist (count decodedBytes : Nat) (seen : List Str) (uploads : List (Str × CachedUpload)) :
    (selectUploads count decodedBytes seen uploads).Sublist uploads := by
  induction uploads generalizing count decodedBytes seen with
  | nil => exact .slnil
  | cons upload uploads ih =>
    obtain ⟨fileUuid, upload⟩ := upload
    rw [selectUploads]
    split
    · exact (ih _ _ _).cons _
    · split
      · exact (ih _ _ _).cons _
      · exact (ih _ _ _).cons_cons _

/-- An id is taken at most once, and a seen one never. -/
theorem selectUploads_nodup (count decodedBytes : Nat) (seen : List Str) (uploads : List (Str × CachedUpload)) :
    ((selectUploads count decodedBytes seen uploads).map Prod.fst).Nodup ∧
      ∀ fileUuid ∈ seen, fileUuid ∉ (selectUploads count decodedBytes seen uploads).map Prod.fst := by
  induction uploads generalizing count decodedBytes seen with
  | nil => exact ⟨List.nodup_nil, fun _ _ => List.not_mem_nil⟩
  | cons upload uploads ih =>
    obtain ⟨fileUuid, upload⟩ := upload
    rw [selectUploads]
    split
    · exact ih _ _ _
    · rename_i hskip
      have hunseen : fileUuid ∉ seen := fun hseen => hskip (.inr (.inr hseen))
      split
      · obtain ⟨hnodup, hseen⟩ := ih count decodedBytes (fileUuid :: seen)
        exact ⟨hnodup, fun other hother => hseen other (List.mem_cons_of_mem _ hother)⟩
      · obtain ⟨hnodup, hseen⟩ := ih (count + 1) (min (decodedBytes + upload.byteSize) usizeMax) (fileUuid :: seen)
        refine ⟨List.nodup_cons.mpr ⟨hseen fileUuid List.mem_cons_self, hnodup⟩, fun other hother => ?_⟩
        rw [List.map_cons, List.mem_cons, not_or]
        exact ⟨fun (heq : other = fileUuid) => hunseen (heq ▸ hother), hseen other (List.mem_cons_of_mem _ hother)⟩

/-- What is taken never exceeds the limits of an event, and nothing is taken past them. -/
theorem selectUploads_limits (count decodedBytes : Nat) (seen : List Str) (uploads : List (Str × CachedUpload)) :
    selectUploads count decodedBytes seen uploads = [] ∨
      (count + (selectUploads count decodedBytes seen uploads).length ≤ maxImageAttachmentsPerEvent ∧
        decodedBytes + uploadBytes (selectUploads count decodedBytes seen uploads) ≤ maxImageAttachmentBytesPerEvent) := by
  induction uploads generalizing count decodedBytes seen with
  | nil => exact .inl rfl
  | cons upload uploads ih =>
    obtain ⟨fileUuid, upload⟩ := upload
    rw [selectUploads]
    split
    · exact ih _ _ _
    · rename_i hskip
      simp only [not_or, Nat.not_le] at hskip
      split
      · exact ih _ _ _
      · rename_i hfits
        have hexact : min (decodedBytes + upload.byteSize) usizeMax = decodedBytes + upload.byteSize := by
          unfold maxImageAttachmentBytesPerEvent usizeMax at *
          omega
        rw [hexact] at hfits ⊢
        right
        rw [List.length_cons, uploadBytes, List.map_cons, List.sum_cons]
        obtain hnil | hmore := ih (count + 1) (decodedBytes + upload.byteSize) (fileUuid :: seen)
        · rw [hnil]
          simp only [List.length_nil, List.map_nil, List.sum_nil]
          omega
        · rw [uploadBytes] at hmore
          change _ ∧ decodedBytes + (upload.byteSize + _) ≤ _
          omega

theorem decodedBytes_eq (images : List ParsedImageAttachment) :
    decodedBytes images = min ((images.map (fun image => image.bytes.length)).sum) usizeMax := by
  have hfold : ∀ (images : List ParsedImageAttachment) (sum : Nat), sum ≤ usizeMax →
      images.foldl (fun sum image => min (sum + image.bytes.length) usizeMax) sum =
        min (sum + (images.map (fun image => image.bytes.length)).sum) usizeMax := by
    intro images
    induction images with
    | nil =>
      intro sum hsum
      simp [hsum]
    | cons image images ih =>
      intro sum _
      rw [List.foldl_cons, ih _ (Nat.min_le_right _ _), List.map_cons, List.sum_cons]
      omega
  rw [decodedBytes, hfold images 0 (Nat.zero_le _), Nat.zero_add]

/-- The file ids of the attached uploads, in reference order. -/
theorem referencedUploads_sublist (cache : ClaudeWebUploadCache) (parsed : ParsedClaudeWebExchange) :
    ((referencedUploads cache parsed).map Prod.fst).Sublist parsed.requestFileUuids := by
  unfold referencedUploads
  generalize parsed.requestFileUuids = fileUuids
  induction fileUuids with
  | nil => exact .slnil
  | cons fileUuid fileUuids ih =>
    rw [List.filterMap_cons]
    cases cache.uploads.lookup ⟨parsed.sessionId, fileUuid⟩ with
    | none => exact ih.cons _
    | some upload => exact ih.cons_cons _

theorem lookup_of_mem_referencedUploads {cache : ClaudeWebUploadCache} {parsed : ParsedClaudeWebExchange} {fileUuid : Str}
    {upload : CachedUpload} (h : (fileUuid, upload) ∈ referencedUploads cache parsed) :
    cache.uploads.lookup ⟨parsed.sessionId, fileUuid⟩ = some upload := by
  obtain ⟨named, _, hlookup⟩ := List.mem_filterMap.mp h
  obtain ⟨found, hfound, heq⟩ := Option.map_eq_some_iff.mp hlookup
  cases heq
  exact hfound

end Selection

section Runs

/-- A call on the context, with its clock reading. -/
inductive ContextCall where
  | recordUpload (upload : Option ParsedUpload) (now : Nat)
  | attachReferencedImages (parsed : ParsedClaudeWebExchange) (now : Nat)

/-- The cache after one call. -/
def applyCall (cache : ClaudeWebUploadCache) : ContextCall → ClaudeWebUploadCache
  | .recordUpload upload now => recordUpload cache upload now
  | .attachReferencedImages parsed now => (attachReferencedImages cache parsed now).1

/-- The upload was recorded by one of the calls. -/
def RecordedBy (calls : List ContextCall) (key : UploadKey) (cached : CachedUpload) : Prop :=
  ∃ upload : ParsedUpload, .recordUpload (some upload) cached.capturedAt ∈ calls ∧ upload.key = key ∧
    upload.image = cached.image

theorem RecordedBy.mono {calls more : List ContextCall} (hsub : calls ⊆ more) {key : UploadKey} {cached : CachedUpload}
    (h : RecordedBy calls key cached) : RecordedBy more key cached := by
  obtain ⟨upload, hmem, hkey, himage⟩ := h
  exact ⟨upload, hsub hmem, hkey, himage⟩

/-- After any calls the cache is consistent, within its limits, and holds recorded uploads only. -/
theorem foldl_applyCall (calls : List ContextCall) :
    (calls.foldl applyCall .empty).Bounded ∧
      ∀ key cached, (calls.foldl applyCall .empty).uploads.lookup key = some cached → RecordedBy calls key cached := by
  induction calls using List.reverseRecOn with
  | nil =>
    refine ⟨⟨ClaudeWebUploadCache.empty_consistent, Nat.zero_le _, Nat.zero_le _⟩, fun key cached hlookup => ?_⟩
    cases hlookup
  | append_singleton calls call ih =>
    obtain ⟨hbounded, hrecorded⟩ := ih
    rw [List.foldl_append, List.foldl_cons, List.foldl_nil]
    have hsub : calls ⊆ calls ++ [call] := List.subset_append_left calls [call]
    have hpruned (now : Nat) : ∀ key cached, ((calls.foldl applyCall .empty).pruneExpired now).uploads.lookup key =
        some cached → RecordedBy (calls ++ [call]) key cached := by
      intro key cached hlookup
      obtain ⟨_, _, hwithin, _⟩ := ClaudeWebUploadCache.pruneExpired_spec hbounded.toConsistent now
      exact (hrecorded key cached (hwithin.lookup key cached hlookup)).mono hsub
    cases call with
    | attachReferencedImages parsed now => exact ⟨hbounded.pruneExpired now, hpruned now⟩
    | recordUpload upload now =>
      cases upload with
      | none => exact ⟨hbounded, fun key cached hlookup => (hrecorded key cached hlookup).mono hsub⟩
      | some upload =>
        obtain ⟨hinserted, honly, _⟩ := (hbounded.pruneExpired now).insert upload now
        refine ⟨hinserted, fun key cached hlookup => ?_⟩
        obtain ⟨rfl, rfl⟩ | hbefore := honly key cached hlookup
        · exact ⟨upload, by simp, rfl, rfl⟩
        · exact hpruned now key cached hbefore

/-- After any calls the queue names each cached key once, the counter is the sum of the cached
sizes and has never saturated, both limits hold, a recorded upload within the budget is cached,
and an event takes only its own session's uploads, named by its file ids, in their order, each id
once, within the limits of an event. -/
theorem upload_cache_invariant (calls : List ContextCall) :
    (calls.foldl applyCall .empty).insertionOrder.Nodup ∧
      (∀ key, key ∈ (calls.foldl applyCall .empty).insertionOrder ↔ key ∈ (calls.foldl applyCall .empty).uploads) ∧
      (calls.foldl applyCall .empty).cachedBytes = (calls.foldl applyCall .empty).bytes ∧
      (calls.foldl applyCall .empty).saturated = false ∧
      (calls.foldl applyCall .empty).uploads.size ≤ maxCachedUploads ∧
      (calls.foldl applyCall .empty).cachedBytes ≤ maxCachedUploadBytes ∧
      (∀ (upload : ParsedUpload) (now : Nat), upload.image.bytes.length ≤ maxCachedUploadBytes →
        (recordUpload (calls.foldl applyCall .empty) (some upload) now).uploads.lookup upload.key =
          some ⟨upload.image, now⟩) ∧
      ∀ (parsed : ParsedClaudeWebExchange) (now : Nat), ∃ attached : List (Str × CachedUpload),
        (attachReferencedImages (calls.foldl applyCall .empty) parsed now).2.requestImages =
            parsed.requestImages ++ attached.map (fun upload => upload.2.image) ∧
          (attached.map Prod.fst).Sublist parsed.requestFileUuids ∧ (attached.map Prod.fst).Nodup ∧
          (∀ fileUuid cached, (fileUuid, cached) ∈ attached → RecordedBy calls ⟨parsed.sessionId, fileUuid⟩ cached) ∧
          (attached = [] ∨ (parsed.requestImages.length + attached.length ≤ maxImageAttachmentsPerEvent ∧
            (parsed.requestImages.map (fun image => image.bytes.length)).sum + uploadBytes attached ≤
              maxImageAttachmentBytesPerEvent)) := by
  obtain ⟨hbounded, hrecorded⟩ := foldl_applyCall calls
  refine ⟨hbounded.nodup, hbounded.keys, hbounded.counted, hbounded.exact, hbounded.count, hbounded.budget, ?_, ?_⟩
  · intro upload now hfits
    exact ((hbounded.pruneExpired now).insert upload now).2.2 hfits
  · intro parsed now
    have hsublist := selectUploads_sublist parsed.requestImages.length (decodedBytes parsed.requestImages) []
      (referencedUploads ((calls.foldl applyCall .empty).pruneExpired now) parsed)
    refine ⟨attachedUploads (calls.foldl applyCall .empty) parsed now, rfl, ?_, (selectUploads_nodup _ _ _ _).1, ?_, ?_⟩
    · exact (hsublist.map Prod.fst).trans (referencedUploads_sublist _ _)
    · intro fileUuid cached hmem
      obtain ⟨_, _, hwithin, _⟩ := ClaudeWebUploadCache.pruneExpired_spec hbounded.toConsistent now
      exact hrecorded _ _ (hwithin.lookup _ _ (lookup_of_mem_referencedUploads (hsublist.mem hmem)))
    · obtain hnil | ⟨hcount, hbytes⟩ := selectUploads_limits parsed.requestImages.length
        (decodedBytes parsed.requestImages) [] (referencedUploads ((calls.foldl applyCall .empty).pruneExpired now) parsed)
      · exact .inl hnil
      · right
        refine ⟨hcount, ?_⟩
        rw [decodedBytes_eq] at hbytes
        change _ + uploadBytes (selectUploads _ _ _ _) ≤ _
        rw [decodedBytes_eq]
        unfold maxImageAttachmentBytesPerEvent usizeMax at *
        omega

end Runs

end Abyss.AgentHook.Anthropic
