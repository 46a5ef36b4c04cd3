import AwsMock.Foundation.Machine
import AwsMock.Foundation.Paging
import AwsMock.Sqs.Dto
import AwsMock.Sqs.Stored

/-! # Pages of attributes

The attributes of a message, the default attributes of a queue and the attributes of a queue are
listed by pages. The first two go through `Core::PageMap`, whose running index never moves.
-/

namespace AwsMock.Sqs

open Foundation Foundation.Machine

/-- `Core::PageMap`. The index that is compared stays at zero. The keys are names in every use. -/
def pageMap {α : Type} (map : StringMap α) (pageSize pageIndex : Int) : Run (StringMap α) :=
  map.toList.foldlM (fun page entry => do
    if 0 ≤ pageSize then
      if 0 < (← long (pageIndex * pageSize)) then return page
      else if 0 < (← long ((← long (pageIndex + 1)) * pageSize)) then
        return page.insert entry.1 entry.2
      else return page
    else return page.insert entry.1 entry.2) ∅

structure AttributeCounters (α : Type) where
  total : Int
  attributeCounters : StringMap α

def listMessageAttributeCounters (message : Option Message) (pageSize pageIndex : Int) :
    Run (AttributeCounters Dto.MessageAttribute) := do
  match message with
  | none => .error .exception
  | some message =>
    return {
      total := message.messageAttributes.size
      attributeCounters := ←
        pageMap (Mapper.messageAttributesToDtoMap message.messageAttributes) pageSize pageIndex }

def listDefaultMessageAttributeCounters (queue : Option Queue) (pageSize pageIndex : Int) :
    Run (AttributeCounters Dto.MessageAttribute) := do
  match queue with
  | none => .error .exception
  | some queue =>
    return {
      total := queue.defaultMessageAttributes.size
      attributeCounters := ←
        pageMap (Mapper.messageAttributesToDtoMap queue.defaultMessageAttributes)
          pageSize pageIndex }

structure AttributeCounter where
  attributeKey : String
  attributeValue : String
deriving DecidableEq, Repr

def queueAttributeCounters (attributes : QueueAttribute) : List AttributeCounter :=
  [⟨"approximateNumberOfMessages", toString attributes.approximateNumberOfMessages⟩,
    ⟨"approximateNumberOfMessagesDelayed", toString attributes.approximateNumberOfMessagesDelayed⟩,
    ⟨"approximateNumberOfMessagesNotVisible",
      toString attributes.approximateNumberOfMessagesNotVisible⟩,
    ⟨"deadLetterTargetArn", attributes.redrivePolicy.deadLetterTargetArn⟩,
    ⟨"delaySeconds", toString attributes.delaySeconds⟩,
    ⟨"maxMessageSize", toString attributes.maxMessageSize⟩,
    ⟨"messageRetentionPeriod", toString attributes.messageRetentionPeriod⟩,
    ⟨"policy", attributes.policy⟩,
    ⟨"maxReceiveCount", toString attributes.redrivePolicy.maxReceiveCount⟩,
    ⟨"queueArn", attributes.queueArn⟩,
    ⟨"redriveAllowPolicy", attributes.redriveAllowPolicy⟩,
    ⟨"visibilityTimeout", toString attributes.visibilityTimeout⟩]

/-- An iterator is formed from the first one only as far as the end. -/
def advance (length : Nat) (places : Int) : Run Nat :=
  if 0 ≤ places ∧ places ≤ length then .ok places.toNat else .error .outOfRange

structure QueueAttributeCounters where
  total : Int
  attributeCounters : List AttributeCounter

/-- The end of the page is formed before it is compared with the total, and the total is one more
than there are attributes. -/
def listQueueAttributeCounters (queue : Option Queue) (pageSize pageIndex : Int) :
    Run QueueAttributeCounters := do
  match queue with
  | none => .error .exception
  | some queue =>
    let total : Int := 13
    let counters := queueAttributeCounters queue.attributes
    if 0 < pageSize then
      let stop ← long (pageSize * (← long (pageIndex + 1)))
      let endArray ← advance counters.length stop
      let endArray := if total < stop then counters.length else endArray
      let beginArray ← advance counters.length (← long (pageSize * pageIndex))
      return ⟨total, (counters.take endArray).drop beginArray⟩
    else return ⟨total, counters⟩

/-! ## Partitions -/

section Definitions

variable {α : Type}

/-- However many pages are shown whose bounds are numbers of 64 bits, they are disjoint, have at
most the size asked for, and together show everything in order once there are enough of them. -/
def Partitions (pageSize : Int) (call : Int → Run (List α)) (whole : List α) : Prop :=
  ∀ count : Nat, FitsLong (pageSize * count) →
    ∃ pages : Nat → List α, (∀ i < count, call i = .ok (pages i)) ∧
      ArePages pageSize pages count whole

def StaysInside (queue : Queue) (pageSize pageIndex : Int) : Prop :=
  ∃ shown, listQueueAttributeCounters (some queue) pageSize pageIndex = .ok shown

def messageAttributePage (message : Message) (pageSize pageIndex : Int) :
    Run (List (String × Dto.MessageAttribute)) := do
  let response ← listMessageAttributeCounters (some message) pageSize pageIndex
  return response.attributeCounters.toList

def defaultMessageAttributePage (queue : Queue) (pageSize pageIndex : Int) :
    Run (List (String × Dto.MessageAttribute)) := do
  let response ← listDefaultMessageAttributeCounters (some queue) pageSize pageIndex
  return response.attributeCounters.toList

def queueAttributePage (queue : Queue) (pageSize pageIndex : Int) :
    Run (List AttributeCounter) := do
  let response ← listQueueAttributeCounters (some queue) pageSize pageIndex
  return response.attributeCounters

end Definitions

section Maps

variable {α : Type} {map : StringMap α} {pageSize : Int}

theorem pageMap_zero (map : StringMap α) (hsize : 0 < pageSize) (hlong : FitsLong pageSize) :
    pageMap map pageSize 0 = .ok map := by
  have hstart : long (0 * pageSize) = .ok 0 := by
    rw [Int.zero_mul]
    rfl
  have hone : long (0 + 1) = .ok 1 := rfl
  have hstop : long (1 * pageSize) = .ok pageSize := by
    rw [Int.one_mul, long_of_fits hlong]
  have hnext : pageMap map pageSize 0 =
      .ok (map.toList.foldl (fun page entry => page.insert entry.1 entry.2) ∅) := by
    refine foldlM_ok (fun page entry _ => ?_) ∅
    rw [if_pos (Int.le_of_lt hsize), hstart, hone]
    change (do
      if 0 < (← long (1 * pageSize)) then return page.insert entry.1 entry.2 else return page) = _
    rw [hstop]
    exact if_pos hsize
  rw [hnext, StringMap.foldl_insert_toList]

theorem pageMap_of_pos (map : StringMap α) (hsize : 0 < pageSize) {pageIndex : Int}
    (hindex : 0 < pageIndex) (hlong : FitsLong (pageIndex * pageSize)) :
    pageMap map pageSize pageIndex = .ok ∅ := by
  have hnext : pageMap map pageSize pageIndex = .ok (map.toList.foldl (fun page _ => page) ∅) := by
    refine foldlM_ok (fun page entry _ => ?_) ∅
    rw [if_pos (Int.le_of_lt hsize), long_of_fits hlong]
    exact if_pos (Int.mul_pos hindex hsize)
  rw [hnext]
  induction map.toList with
  | nil => rfl
  | cons entry entries ih => exact ih

theorem partitions_iff_of_first {β : Type} {call : Int → Run (List β)} {whole : List β}
    (hsize : 0 < pageSize) (hlong : FitsLong pageSize) (hfirst : call 0 = .ok whole)
    (hrest : ∀ pageIndex, 0 < pageIndex → FitsLong (pageIndex * pageSize) →
      call pageIndex = .ok []) :
    Partitions pageSize call whole ↔ (whole.length : Int) ≤ pageSize := by
  constructor
  · intro hpages
    have hone : pageSize * ((1 : Nat) : Int) = pageSize := Int.mul_one pageSize
    obtain ⟨pages, hcall, hpages⟩ := hpages 1 (by rwa [hone])
    have hzero := hcall 0 Nat.one_pos
    change call 0 = _ at hzero
    rw [hfirst] at hzero
    have hlength := hpages.length_le 0 Nat.one_pos
    rwa [← Except.ok.inj hzero] at hlength
  · intro hlength count hcount
    refine ⟨fun i => if i = 0 then whole else [], fun i hi => ?_, ?_⟩
    · rcases Nat.eq_zero_or_pos i with rfl | hpos
      · exact hfirst
      · dsimp only
        rw [if_neg (Nat.ne_of_gt hpos)]
        refine hrest i (by omega) ⟨?_, ?_⟩
        · have hnonneg : 0 ≤ (i : Int) * pageSize := Int.mul_nonneg (by omega) (by omega)
          omega
        · refine Int.lt_of_le_of_lt ?_ hcount.2
          rw [Int.mul_comm]
          exact Int.mul_le_mul_of_nonneg_left (by omega) (Int.le_of_lt hsize)
    · exact arePages_of_first (if_pos rfl) (fun i hi => if_neg (Nat.ne_of_gt hi)) hlength count

theorem toList_empty : (∅ : StringMap α).toList = [] := by
  rw [← List.length_eq_zero_iff, Std.ExtTreeMap.length_toList, Std.ExtTreeMap.size_empty]

theorem length_messageAttributesToDtoMap (messageAttributes : StringMap MessageAttribute) :
    (Mapper.messageAttributesToDtoMap messageAttributes).toList.length =
      messageAttributes.size := by
  rw [Std.ExtTreeMap.length_toList, Mapper.messageAttributesToDtoMap, Std.ExtTreeMap.size_map]

end Maps

section Listings

variable {pageSize : Int}

theorem partitions_pageMap_iff {α : Type} (map : StringMap α) (hsize : 0 < pageSize)
    (hlong : FitsLong pageSize) :
    Partitions pageSize (fun pageIndex => Std.ExtTreeMap.toList <$> pageMap map pageSize pageIndex)
        map.toList ↔
      (map.size : Int) ≤ pageSize := by
  rw [partitions_iff_of_first hsize hlong, Std.ExtTreeMap.length_toList]
  · rw [pageMap_zero _ hsize hlong]
    rfl
  · intro pageIndex hindex hbound
    rw [pageMap_of_pos _ hsize hindex hbound, ← @toList_empty α]
    rfl

theorem partitions_messageAttributePage_iff (message : Message) (hsize : 0 < pageSize)
    (hlong : FitsLong pageSize) :
    Partitions pageSize (messageAttributePage message pageSize)
        (Mapper.messageAttributesToDtoMap message.messageAttributes).toList ↔
      (message.messageAttributes.size : Int) ≤ pageSize := by
  rw [partitions_iff_of_first hsize hlong]
  · rw [length_messageAttributesToDtoMap]
  · rw [messageAttributePage, listMessageAttributeCounters, pageMap_zero _ hsize hlong]
    rfl
  · intro pageIndex hindex hbound
    rw [messageAttributePage, listMessageAttributeCounters,
      pageMap_of_pos _ hsize hindex hbound, ← @toList_empty Dto.MessageAttribute]
    rfl

variable (queue : Queue)

theorem partitions_defaultMessageAttributePage_iff (hsize : 0 < pageSize)
    (hlong : FitsLong pageSize) :
    Partitions pageSize (defaultMessageAttributePage queue pageSize)
        (Mapper.messageAttributesToDtoMap queue.defaultMessageAttributes).toList ↔
      (queue.defaultMessageAttributes.size : Int) ≤ pageSize := by
  rw [partitions_iff_of_first hsize hlong]
  · rw [length_messageAttributesToDtoMap]
  · rw [defaultMessageAttributePage, listDefaultMessageAttributeCounters,
      pageMap_zero _ hsize hlong]
    rfl
  · intro pageIndex hindex hbound
    rw [defaultMessageAttributePage, listDefaultMessageAttributeCounters,
      pageMap_of_pos _ hsize hindex hbound, ← @toList_empty Dto.MessageAttribute]
    rfl

theorem advance_eq_ok_iff {length : Nat} {places : Int} {place : Nat} :
    advance length places = .ok place ↔ (0 ≤ places ∧ places ≤ length) ∧ places.toNat = place := by
  unfold advance
  split
  next hinside => exact ⟨fun h => ⟨hinside, Except.ok.inj h⟩, fun h => congrArg _ h.2⟩
  next hbeyond => exact ⟨fun h => (nomatch h), fun h => absurd h.1 hbeyond⟩

theorem staysInside_iff (pageSize : Int) {pageIndex : Int}
    (hindex : 0 ≤ pageIndex) :
    StaysInside queue pageSize pageIndex ↔ pageSize ≤ 0 ∨ pageSize * (pageIndex + 1) ≤ 12 := by
  have hlength : (queueAttributeCounters queue.attributes).length = 12 := rfl
  by_cases hsize : 0 < pageSize
  · have hstep : pageSize * (pageIndex + 1) = pageSize * pageIndex + pageSize := by
      rw [Int.mul_add, Int.mul_one]
    have hstart : 0 ≤ pageSize * pageIndex := Int.mul_nonneg (Int.le_of_lt hsize) hindex
    have hplace : 1 * pageIndex ≤ pageSize * pageIndex :=
      Int.mul_le_mul_of_nonneg_right hsize hindex
    constructor
    · rintro ⟨shown, hshown⟩
      rw [listQueueAttributeCounters] at hshown
      change (if 0 < pageSize then _ else _) = _ at hshown
      rw [if_pos hsize] at hshown
      obtain ⟨next, hnext, hshown⟩ := bind_eq_ok.mp hshown
      obtain ⟨-, rfl⟩ := long_eq_ok.mp hnext
      obtain ⟨stop, hstop, hshown⟩ := bind_eq_ok.mp hshown
      obtain ⟨-, rfl⟩ := long_eq_ok.mp hstop
      obtain ⟨endArray, hend, -⟩ := bind_eq_ok.mp hshown
      rw [advance_eq_ok_iff, hlength] at hend
      exact .inr hend.1.2
    · intro hinside
      have hbound := hinside.resolve_left (by omega)
      refine ⟨⟨13, ((queueAttributeCounters queue.attributes).take
        (pageSize * (pageIndex + 1)).toNat).drop (pageSize * pageIndex).toNat⟩, ?_⟩
      have hend : advance (queueAttributeCounters queue.attributes).length
          (pageSize * (pageIndex + 1)) = .ok (pageSize * (pageIndex + 1)).toNat := by
        rw [advance_eq_ok_iff, hlength]
        exact ⟨⟨by omega, hbound⟩, rfl⟩
      have hbegin : advance (queueAttributeCounters queue.attributes).length
          (pageSize * pageIndex) = .ok (pageSize * pageIndex).toNat := by
        rw [advance_eq_ok_iff, hlength]
        exact ⟨⟨hstart, by omega⟩, rfl⟩
      rw [listQueueAttributeCounters]
      change (if 0 < pageSize then _ else _) = _
      rw [if_pos hsize, long_of_fits ⟨by omega, by omega⟩]
      change (long (pageSize * (pageIndex + 1)) >>= _) = _
      rw [long_of_fits ⟨by omega, by omega⟩]
      change (advance _ _ >>= _) = _
      rw [hend]
      change (long (pageSize * pageIndex) >>= _) = _
      rw [long_of_fits ⟨by omega, by omega⟩]
      change (advance _ _ >>= _) = _
      rw [hbegin]
      change Except.ok (QueueAttributeCounters.mk 13 (((queueAttributeCounters
        queue.attributes).take (if 13 < pageSize * (pageIndex + 1) then _ else _)).drop _)) = _
      rw [if_neg (by omega)]
  · have hall : pageSize ≤ 0 := by omega
    refine iff_of_true ⟨⟨13, queueAttributeCounters queue.attributes⟩, ?_⟩ (.inl hall)
    rw [listQueueAttributeCounters]
    exact if_neg hsize

theorem not_partitions_queueAttributePage (hsize : 0 < pageSize)
    (hlong : FitsLong pageSize) :
    ¬Partitions pageSize (queueAttributePage queue pageSize)
        (queueAttributeCounters queue.attributes) := by
  intro hpages
  -- One page is enough to leave the list if it is large, and thirteen are otherwise.
  have hleaves : ∃ count : Nat, 0 < count ∧ FitsLong (pageSize * count) ∧
      12 < pageSize * (((count - 1 : Nat) : Int) + 1) := by
    by_cases hlarge : 12 < pageSize
    · refine ⟨1, Nat.one_pos, ?_, ?_⟩
      · rwa [show pageSize * ((1 : Nat) : Int) = pageSize from Int.mul_one pageSize]
      · change 12 < pageSize * 1
        omega
    · refine ⟨13, by omega, ⟨?_, ?_⟩, ?_⟩
      · change -9223372036854775808 ≤ pageSize * 13
        omega
      · change pageSize * 13 < 9223372036854775808
        omega
      · change 12 < pageSize * 13
        omega
  obtain ⟨count, hpos, hfits, hbeyond⟩ := hleaves
  obtain ⟨pages, hcall, -⟩ := hpages count hfits
  have hlast := hcall (count - 1) (by omega)
  obtain ⟨shown, hshown, -⟩ := bind_eq_ok.mp hlast
  have hinside := (staysInside_iff queue pageSize (Int.natCast_nonneg (count - 1))).mp
    ⟨shown, hshown⟩
  omega

end Listings

/-- The pages of a map, of the attributes of a message and of the default attributes of a queue
are partitions exactly when everything fits on one page. A page of queue attributes is inside the
list exactly when it ends there, and these pages are never a partition. -/
theorem attributePages_iff (α : Type) :
    (∀ (map : StringMap α) (pageSize : Int), 0 < pageSize → FitsLong pageSize → (Partitions pageSize
          (fun pageIndex => Std.ExtTreeMap.toList <$> pageMap map pageSize pageIndex) map.toList ↔
        (map.size : Int) ≤ pageSize)) ∧
    (∀ (message : Message) (pageSize : Int), 0 < pageSize → FitsLong pageSize →
      (Partitions pageSize (messageAttributePage message pageSize)
          (Mapper.messageAttributesToDtoMap message.messageAttributes).toList ↔
        (message.messageAttributes.size : Int) ≤ pageSize)) ∧
    (∀ (queue : Queue) (pageSize : Int), 0 < pageSize → FitsLong pageSize →
      (Partitions pageSize (defaultMessageAttributePage queue pageSize)
          (Mapper.messageAttributesToDtoMap queue.defaultMessageAttributes).toList ↔
        (queue.defaultMessageAttributes.size : Int) ≤ pageSize)) ∧
    (∀ (queue : Queue) (pageSize pageIndex : Int), 0 ≤ pageIndex →
      (StaysInside queue pageSize pageIndex ↔ pageSize ≤ 0 ∨ pageSize * (pageIndex + 1) ≤ 12)) ∧
    ∀ (queue : Queue) (pageSize : Int), 0 < pageSize → FitsLong pageSize →
      ¬Partitions pageSize (queueAttributePage queue pageSize)
        (queueAttributeCounters queue.attributes) :=
  ⟨fun map _ hsize hlong => partitions_pageMap_iff map hsize hlong,
    fun message _ hsize hlong => partitions_messageAttributePage_iff message hsize hlong,
    fun queue _ hsize hlong => partitions_defaultMessageAttributePage_iff queue hsize hlong,
    fun queue pageSize _ hindex => staysInside_iff queue pageSize hindex,
    fun queue _ hsize hlong => not_partitions_queueAttributePage queue hsize hlong⟩

/-- Two attributes are on one page of size one, and the second page of ten queue attributes is
beyond the list. -/
theorem not_attributePages_partition :
    (¬∀ (message : Message) (pageSize : Int), 0 < pageSize → FitsLong pageSize →
      Partitions pageSize (messageAttributePage message pageSize)
        (Mapper.messageAttributesToDtoMap message.messageAttributes).toList) ∧
    ¬∀ (queue : Queue) (pageSize pageIndex : Int), 0 ≤ pageIndex →
      StaysInside queue pageSize pageIndex := by
  constructor
  · intro hpages
    have hlong : FitsLong 1 := ⟨by decide, by decide⟩
    let attributes : StringMap MessageAttribute := (∅ : StringMap MessageAttribute).insert "a" {}
    have hfits := (partitions_messageAttributePage_iff
      { messageAttributes := attributes.insert "b" {} } Int.one_pos hlong).mp
        (hpages { messageAttributes := attributes.insert "b" {} } 1 Int.one_pos hlong)
    have hsize : (attributes.insert "b" {}).size = 2 := by
      rw [Std.ExtTreeMap.size_insert, Std.ExtTreeMap.size_insert]
      decide
    change ((attributes.insert "b" {}).size : Int) ≤ 1 at hfits
    rw [hsize] at hfits
    exact absurd hfits (by decide)
  · intro hinside
    have hsecond := (staysInside_iff {} 10 Int.one_nonneg).mp (hinside {} 10 1 Int.one_nonneg)
    exact absurd hsecond (by decide)

end AwsMock.Sqs
