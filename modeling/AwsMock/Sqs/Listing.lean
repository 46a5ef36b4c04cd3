import AwsMock.Foundation.Paging
import AwsMock.Sqs.Repository
import AwsMock.Sqs.StoredMessages

/-! # Listings and counts in the two repositories

What a listing is for: the page of the sorted list of the entities a filter
selects, where a sort column names a field of the stored documents. Each
listing of the two repositories is compared with that list.
-/

namespace AwsMock.Sqs

open Foundation

/-- The two stores hold the same queues and messages, and no document of a
message has a field `key`, which nothing writes. -/
structure SameEntities (memory : MemoryStore) (mongo : MongoStore) : Prop where
  queues : List.Forall₂ Queue.StoredAs memory.queues.values mongo.queues
  queuesReadable : ∀ queue ∈ memory.queues.values, queue.reread = queue
  messages : List.Forall₂ Message.StoredAs memory.messages.values mongo.messages
  messagesReadable : ∀ message ∈ memory.messages.values, message.reread = message
  keyless : ∀ document ∈ mongo.messages, document.get? "key" = none

section Rows

variable {α : Type} (order : Option Value → Option Value → Bool) (sortColumns : List SortColumn)

/-- Entities next to their documents, sorted by document fields. -/
def sortRows (rows : List (α × Document)) : List (α × Document) :=
  if sortColumns = [] then rows
  else rows.insertionSort fun left right =>
    sortsBefore order (MongoRepository.sortKeys sortColumns) left.2 right.2

def listed (select : α → Bool) (entities : List α) (documents : List Document) : List α :=
  (sortRows order sortColumns
    ((entities.zip documents).filter fun row => select row.1)).map Prod.fst

def DirectionsValid : Prop :=
  ∀ sortColumn ∈ sortColumns, sortColumn.sortDirection = 1 ∨ sortColumn.sortDirection = -1

def window (limit : Nat) (skip : Int) (xs : List α) : List α :=
  let rest := xs.drop skip.toNat
  if limit = 0 then rest else rest.take limit

variable {order sortColumns} {select : α → Bool} {entities : List α} {documents : List Document}

theorem map_window {β : Type} (f : α → β) (limit : Nat) (skip : Int) (xs : List α) :
    (window limit skip xs).map f = window limit skip (xs.map f) := by
  simp only [window]
  split <;> simp [List.map_drop, List.map_take]

variable (rows : List (α × Document))

theorem length_sortRows :
    (sortRows order sortColumns rows).length = rows.length := by
  rw [sortRows]
  split
  · rfl
  · exact List.length_insertionSort _ _

theorem mem_sortRows {rows : List (α × Document)} {row : α × Document} :
    row ∈ sortRows order sortColumns rows ↔ row ∈ rows := by
  rw [sortRows]
  split
  · rfl
  · exact List.mem_insertionSort _

theorem map_fst_filter_zip (hlength : entities.length = documents.length) :
    ((entities.zip documents).filter fun row => select row.1).map Prod.fst =
      entities.filter select := by
  have hzip : (entities.zip documents).map Prod.fst = entities :=
    List.map_fst_zip (Nat.le_of_eq hlength)
  conv_rhs => rw [← hzip, List.filter_map]
  rfl

variable (order sortColumns select) in
theorem length_listed (hlength : entities.length = documents.length) :
    (listed order sortColumns select entities documents).length =
      (entities.filter select).length := by
  rw [listed, List.length_map, length_sortRows, ← map_fst_filter_zip hlength, List.length_map]

theorem mapM_read_window {read : Document → Except CoreException α}
    (hread : ∀ row ∈ rows, read row.2 = .ok row.1) :
    (rows.map Prod.snd).mapM read = .ok (rows.map Prod.fst) := by
  induction rows with
  | nil => rfl
  | cons row rows ih =>
    rw [List.map_cons, List.mapM_cons, hread row List.mem_cons_self,
      ih fun other hother => hread other (List.mem_cons_of_mem _ hother)]
    rfl

theorem sortKeys_valid :
    ((MongoRepository.sortKeys sortColumns).all fun key =>
      decide (key.2 = 1) || decide (key.2 = -1)) = true ↔ DirectionsValid sortColumns := by
  simp [MongoRepository.sortKeys, DirectionsValid, List.all_eq_true]

variable {filter : Filter} {limit : Nat} {skip : Int}

theorem findPage_invalid (hinvalid : ¬(0 ≤ skip ∧ DirectionsValid sortColumns)) :
    Collection.findPage order filter
      ⟨limit, skip, MongoRepository.sortKeys sortColumns⟩ documents = none := by
  rw [Collection.findPage, if_neg]
  rw [FindOptions.valid, Bool.and_eq_true, decide_eq_true_eq, sortKeys_valid]
  exact hinvalid

theorem filter_zip_eq (hstored : List.Forall₂
    (fun entity document => filter.accepts document = select entity) entities documents) :
    ((entities.zip documents).filter fun row => select row.1).map Prod.snd =
      Collection.find filter documents := by
  induction hstored with
  | nil => rfl
  | @cons entity document entities documents hselect _ ih =>
    rw [Collection.find, List.zip_cons_cons, List.filter_cons, List.filter_cons, hselect]
    split
    · rw [List.map_cons, ih]
      rfl
    · exact ih

theorem map_snd_sortRows :
    (sortRows order sortColumns rows).map Prod.snd =
      if (MongoRepository.sortKeys sortColumns).isEmpty then rows.map Prod.snd
      else (rows.map Prod.snd).insertionSort fun left right =>
        sortsBefore order (MongoRepository.sortKeys sortColumns) left right := by
  rw [sortRows]
  cases sortColumns with
  | nil => rfl
  | cons sortColumn rest =>
    rw [if_neg (List.cons_ne_nil _ _)]
    exact List.map_insertionSort _ _ Prod.snd rows fun _ _ _ _ => Iff.rfl

variable (order sortColumns limit) in
theorem findPage_rows
    (hstored : List.Forall₂ (fun entity document => filter.accepts document = select entity)
      entities documents)
    (hvalid : 0 ≤ skip ∧ DirectionsValid sortColumns) :
    Collection.findPage order filter ⟨limit, skip, MongoRepository.sortKeys sortColumns⟩ documents =
      some ((window limit skip (sortRows order sortColumns
          ((entities.zip documents).filter fun row => select row.1))).map Prod.snd) := by
  rw [Collection.findPage, if_pos]
  · rw [map_window, map_snd_sortRows, filter_zip_eq hstored]
    rfl
  · rw [FindOptions.valid, Bool.and_eq_true, decide_eq_true_eq, sortKeys_valid]
    exact hvalid

end Rows

section Filters

open MongoRepository

theorem accepts_append (first second : Filter) (document : Document) :
    Filter.accepts (first ++ second) document =
      (Filter.accepts first document && Filter.accepts second document) :=
  List.all_append

theorem accepts_unlessEmpty (text : String) (clause : List String × Condition)
    (document : Document) :
    Filter.accepts (unlessEmpty text clause) document =
      (decide (text = "") || clause.2.holds (document.getPath clause.1)) := by
  rw [unlessEmpty]
  split
  next htext => simp [htext]
  next htext => simp [htext]

theorem startsWith_empty {textPrefix : String} (hstarts : textPrefix ≠ "") :
    StringUtils.startsWith "" textPrefix = false := by
  have hchars : textPrefix.toList ≠ [] := by simpa using hstarts
  obtain ⟨c, rest, hcons⟩ := List.exists_cons_of_ne_nil hchars
  simp [StringUtils.startsWith, hcons]

theorem Queue.StoredAs.accepts_region {queue : Queue} {document : Document}
    (hstored : queue.StoredAs document) (region : String) :
    Filter.accepts (unlessEmpty region (fieldIs "region" region)) document =
      (decide (region = "") || decide (queue.region = region)) := by
  rw [accepts_unlessEmpty]
  by_cases hregion : region = ""
  · simp [hregion]
  · have hfield := hstored.region
    rw [StoresText] at hfield
    by_cases hqueue : queue.region = ""
    · simp [fieldIs, Condition.holds, hfield, hqueue, hregion, Ne.symm hregion]
    · simp [fieldIs, Condition.holds, hfield, hqueue, hregion]

theorem Queue.StoredAs.accepts_name {queue : Queue} {document : Document}
    (hstored : queue.StoredAs document) (queuePrefix : String) :
    Filter.accepts (unlessEmpty queuePrefix (startsWithClause "name" queuePrefix)) document =
      (decide (queuePrefix = "") || StringUtils.startsWith queue.name queuePrefix) := by
  rw [accepts_unlessEmpty]
  by_cases hstarts : queuePrefix = ""
  · simp [hstarts]
  · have hfield := hstored.name
    rw [StoresText] at hfield
    by_cases hqueue : queue.name = ""
    · simp [startsWithClause, Condition.holds, hfield, hqueue, hstarts, startsWith_empty hstarts]
    · simp [startsWithClause, Condition.holds, hfield, hqueue, hstarts, StringUtils.startsWith]

variable {message : Message} {document : Document}

theorem Message.StoredAs.accepts_queueArn_unlessEmpty (hstored : message.StoredAs document)
    (queueArn : String) :
    Filter.accepts (unlessEmpty queueArn (fieldIs "queueArn" queueArn)) document =
      (decide (queueArn = "") || message.isIn queueArn) := by
  rw [accepts_unlessEmpty]
  exact congrArg _ (hstored.holds_queueArn queueArn)

theorem Message.StoredAs.accepts_messagePrefix (hstored : message.StoredAs document)
    (messagePrefix : String) :
    Filter.accepts (unlessEmpty messagePrefix (startsWithClause "messageId" messagePrefix))
        document =
      (decide (messagePrefix = "") || StringUtils.startsWith message.messageId messagePrefix) := by
  rw [accepts_unlessEmpty]
  simp [startsWithClause, Condition.holds, hstored.messageId, StringUtils.startsWith]

theorem filter_unless {α : Type} (condition : Prop) [Decidable condition] (select : α → Bool)
    (xs : List α) :
    (if condition then xs else xs.filter select) =
      xs.filter fun x => decide condition || select x := by
  by_cases hcondition : condition <;> simp [hcondition]

end Filters

section Queues

variable {memory : MemoryStore} {mongo : MongoStore}

def BothReturn {α : Type} (memoryCall : MemoryRepository.MemoryCall α)
    (mongoCall : MongoRepository.MongoCall α) (memory : MemoryStore) (mongo : MongoStore)
    (draws : Nat) (value : α) : Prop :=
  memoryCall.run [] ⟨memory, draws⟩ = .returns value ⟨memory, draws⟩ ∧
    mongoCall.run [] ⟨mongo, draws⟩ = .returns value ⟨mongo, draws⟩

def Queue.inRegion (region : String) (queue : Queue) : Bool :=
  decide (region = "") || decide (queue.region = region)

def Queue.hasPrefix (queuePrefix : String) (queue : Queue) : Bool :=
  decide (queuePrefix = "") || StringUtils.startsWith queue.name queuePrefix

def Queue.isListed (region queuePrefix : String) (queue : Queue) : Bool :=
  queue.hasPrefix queuePrefix && queue.inRegion region

theorem accepts_listed {queue : Queue} {document : Document} (hstored : queue.StoredAs document)
    (region queuePrefix : String) :
    Filter.accepts (MongoRepository.unlessEmpty queuePrefix
            (MongoRepository.startsWithClause "name" queuePrefix) ++
          MongoRepository.unlessEmpty region (fieldIs "region" region)) document =
      queue.isListed region queuePrefix := by
  rw [accepts_append, hstored.accepts_name, hstored.accepts_region]
  rfl

theorem filter_listed (region queuePrefix : String) (queues : List Queue) :
    (queues.filter (Queue.inRegion region)).filter (Queue.hasPrefix queuePrefix) =
      queues.filter (Queue.isListed region queuePrefix) := by
  rw [List.filter_filter]
  rfl

theorem run_listQueuesPage_memory (queuePrefix : String) (pageSize pageIndex : Int)
    (sortColumns : List SortColumn) (region : String) (draws : Nat) :
    (MemoryRepository.listQueuesPage queuePrefix pageSize pageIndex sortColumns region).run []
        ⟨memory, draws⟩ =
      .returns (memory.queues.values.filter (Queue.isListed region queuePrefix))
        ⟨memory, draws⟩ := by
  have hpage : ∀ queues : List Queue, (if pageSize > 0 then queues
        else MemoryRepository.pageVector queues pageSize pageIndex) = queues := by
    intro queues
    split
    · rfl
    · rw [MemoryRepository.pageVector, if_pos (by omega)]
  simp only [MemoryRepository.listQueuesPage, MemoryRepository.readQueues, Action.run_bind,
    Call.run_readStore, Outcome.andThen_returns, Action.run_pure, hpage, filter_unless]
  rw [← filter_listed]
  rfl

def queueSkip (pageSize pageIndex : Int) : Int :=
  if pageIndex > 0 then pageIndex * pageSize else 0

def limitOf (pageSize : Int) : Nat := if pageSize > 0 then pageSize.toNat else 0

theorem mapM_read_listed {α : Type} (order : Option Value → Option Value → Bool)
    (sortColumns : List SortColumn) (select : α → Bool) {entities : List α}
    {documents : List Document} {read : Document → Except CoreException α}
    (hread : List.Forall₂ (fun entity document => read document = .ok entity) entities documents)
    (limit : Nat) (skip : Int) :
    ((window limit skip (sortRows order sortColumns
        ((entities.zip documents).filter fun row => select row.1))).map Prod.snd).mapM read =
      .ok (window limit skip (listed order sortColumns select entities documents)) := by
  rw [mapM_read_window, listed, map_window]
  intro row hrow
  have hzip : row ∈ entities.zip documents := by
    have hsorted : row ∈ sortRows order sortColumns
        ((entities.zip documents).filter fun row => select row.1) := by
      rw [window] at hrow
      split at hrow
      · exact List.mem_of_mem_drop hrow
      · exact List.mem_of_mem_drop (List.mem_of_mem_take hrow)
    exact List.mem_of_mem_filter (mem_sortRows.mp hsorted)
  exact (List.forall₂_iff_zip.mp hread).2 hzip

theorem SameEntities.read_queues (hsame : SameEntities memory mongo) :
    List.Forall₂ (fun queue document => Queue.fromDocument document = .ok queue)
      memory.queues.values mongo.queues :=
  ((List.forall₂_and_left _ _).mpr ⟨hsame.queuesReadable, hsame.queues⟩).imp
    fun queue document hstands => by rw [hstands.2.fromDocument_eq, hstands.1]

theorem SameEntities.read_messages (hsame : SameEntities memory mongo) :
    List.Forall₂ (fun message document => Message.fromDocument document = .ok message)
      memory.messages.values mongo.messages :=
  ((List.forall₂_and_left _ _).mpr ⟨hsame.messagesReadable, hsame.messages⟩).imp
    fun message document hstands => by rw [hstands.2.fromDocument_eq, hstands.1]

section

variable {order : Option Value → Option Value → Bool} {queuePrefix region : String}
variable {pageSize pageIndex : Int} {sortColumns : List SortColumn} {draws : Nat}

theorem run_listQueuesPage_mongo (hsame : SameEntities memory mongo)
    (hvalid : 0 ≤ queueSkip pageSize pageIndex ∧ DirectionsValid sortColumns) :
    (MongoRepository.listQueuesPage order queuePrefix pageSize pageIndex sortColumns region).run []
        ⟨mongo, draws⟩ =
      .returns (window (limitOf pageSize) (queueSkip pageSize pageIndex)
          (listed order sortColumns (Queue.isListed region queuePrefix) memory.queues.values
            mongo.queues)) ⟨mongo, draws⟩ := by
  have hfind := findPage_rows order sortColumns (limitOf pageSize)
    (hsame.queues.imp fun queue document hstands => accepts_listed hstands region queuePrefix)
    hvalid
  have hread := mapM_read_listed order sortColumns (Queue.isListed region queuePrefix)
    hsame.read_queues (limitOf pageSize) (queueSkip pageSize pageIndex)
  simp only [limitOf, queueSkip] at hfind hread ⊢
  simp [MongoRepository.listQueuesPage, MongoRepository.readQueues, MongoRepository.findPage,
    MongoRepository.readQueueList, hfind, hread]

theorem run_listQueuesPage_invalid
    (hinvalid : ¬(0 ≤ queueSkip pageSize pageIndex ∧ DirectionsValid sortColumns)) :
    (MongoRepository.listQueuesPage order queuePrefix pageSize pageIndex sortColumns region).run []
        ⟨mongo, draws⟩ = .halts (.exception (.standard "BadValue")) ⟨mongo, draws⟩ := by
  have hfind : ∀ filter, Collection.findPage order filter
      ⟨limitOf pageSize, queueSkip pageSize pageIndex, MongoRepository.sortKeys sortColumns⟩
      mongo.queues = none := fun filter => findPage_invalid hinvalid
  simp only [limitOf, queueSkip] at hfind
  simp [MongoRepository.listQueuesPage, MongoRepository.readQueues, MongoRepository.findPage, hfind]

theorem window_eq_page {α : Type} {xs : List α} {skip : Int}
    (hskip : pageSize > 0 → 0 ≤ pageIndex → skip = pageSize * pageIndex)
    (hwhole : pageSize ≤ 0 → skip = 0) (hindex : pageSize ≤ 0 ∨ 0 ≤ pageIndex ∨ xs = []) :
    window (limitOf pageSize) skip xs = page pageSize pageIndex xs := by
  by_cases hsize : pageSize ≤ 0
  · have hlimit : limitOf pageSize = 0 := if_neg (by omega)
    rw [window, hlimit, if_pos rfl, hwhole hsize, page, if_pos hsize]
    rfl
  · rcases hindex with hsize' | hindex | rfl
    · exact absurd hsize' hsize
    · have hlimit : limitOf pageSize = pageSize.toNat := if_pos (by omega)
      rw [page_eq_take_drop (by omega) hindex, window, hlimit, if_neg (by omega),
        hskip (by omega) hindex]
    · simp [window, page]

def QueuesListable (order : Option Value → Option Value → Bool) (queuePrefix : String)
    (pageSize pageIndex : Int) (sortColumns : List SortColumn) (region : String)
    (memory : MemoryStore) (mongo : MongoStore) : Prop :=
  listed order sortColumns (Queue.isListed region queuePrefix) memory.queues.values mongo.queues =
      memory.queues.values.filter (Queue.isListed region queuePrefix) ∧
    PageIsWhole pageSize pageIndex
      (memory.queues.values.filter (Queue.isListed region queuePrefix)).length ∧
    DirectionsValid sortColumns ∧ ¬(pageSize < 0 ∧ 0 < pageIndex)

theorem listQueuesPage_iff (hsame : SameEntities memory mongo) :
    BothReturn (MemoryRepository.listQueuesPage queuePrefix pageSize pageIndex sortColumns region)
        (MongoRepository.listQueuesPage order queuePrefix pageSize pageIndex sortColumns region)
        memory mongo draws
        (page pageSize pageIndex (listed order sortColumns (Queue.isListed region queuePrefix)
          memory.queues.values mongo.queues)) ↔
      QueuesListable order queuePrefix pageSize pageIndex sortColumns region memory mongo := by
  have hlength := length_listed order sortColumns (Queue.isListed region queuePrefix)
    hsame.queues.length_eq
  rw [BothReturn, run_listQueuesPage_memory]
  constructor
  · rintro ⟨hmemory, hmongo⟩
    injection hmemory with hpage _
    obtain ⟨hsorted, hwhole⟩ := (page_eq_iff hlength).mp hpage.symm
    by_cases hvalid : 0 ≤ queueSkip pageSize pageIndex ∧ DirectionsValid sortColumns
    · refine ⟨hsorted, hwhole, hvalid.2, ?_⟩
      rintro ⟨hsize, hindex⟩
      have hskip := hvalid.1
      rw [queueSkip, if_pos hindex] at hskip
      have hnegative := Int.mul_neg_of_pos_of_neg hindex hsize
      omega
    · rw [run_listQueuesPage_invalid hvalid] at hmongo
      cases hmongo
  · rintro ⟨hsorted, hwhole, hdirections, hsane⟩
    have hpage := (page_eq_iff hlength).mpr ⟨hsorted, hwhole⟩
    have hskip : 0 ≤ queueSkip pageSize pageIndex := by
      rw [queueSkip]
      split
      next hindex => exact Int.mul_nonneg (by omega) (by omega)
      next => exact Int.le_refl 0
    refine ⟨by rw [hpage], ?_⟩
    rw [run_listQueuesPage_mongo hsame ⟨hskip, hdirections⟩, window_eq_page]
    · intro hsize hindex
      rw [queueSkip]
      split
      next => exact Int.mul_comm _ _
      next hindex' =>
        have hzero : pageIndex = 0 := by omega
        rw [hzero, Int.mul_zero]
    · intro hsize
      rw [queueSkip]
      split
      next hindex =>
        have hzero : pageSize = 0 := by omega
        rw [hzero, Int.mul_zero]
      next => rfl
    · rw [PageIsWhole] at hwhole
      rcases hwhole with hsize | hempty | ⟨hindex, -⟩
      · exact Or.inl hsize
      · exact Or.inr (Or.inr (List.eq_nil_of_length_eq_zero (hlength.trans hempty)))
      · exact Or.inr (Or.inl (by omega))

end

end Queues

end AwsMock.Sqs
