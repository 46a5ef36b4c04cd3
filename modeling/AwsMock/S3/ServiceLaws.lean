import AwsMock.Foundation.Contract
import AwsMock.S3.Records
import AwsMock.S3.Service

/-! # Contracts of the object service

What the parts of a service call do with the records of the repository. Only the calls
that write to the repository change them, and only a delivery that fails throws.
-/

namespace AwsMock.S3

open Foundation

def Holds (records : Records) (world : World Storage) : Prop :=
  world.store.database.records = records

def Surroundings.Fails (surroundings : Surroundings) : Prop :=
  ∃ delivery exn, surroundings.deliver delivery = .error exn

namespace ServiceCall

variable {records after : Records} {halted : World Storage → Prop}

variable {α : Type}

theorem run_perform (call : Store → α × Store) (held : List Empty) (world : World Storage) :
    (perform call).run held world = .returns (call world.store.database).1
      { world with store := { world.store with database := (call world.store.database).2 } } :=
  rfl

theorem satisfies_query {read : Store → α} {value : α}
    (hread : ∀ store : Store, store.records = records → read store = value) :
    (query read).Satisfies (Holds records)
      (fun result world => Holds records world ∧ result = value) halted :=
  fun _ world hholds => ⟨hholds, hread world.store.database hholds⟩

theorem satisfies_anyQuery (read : Store → α) :
    (query read).Satisfies (Holds records) (fun _ => Holds records) halted :=
  fun _ _ hholds => hholds

theorem satisfies_execute {write : Store → Store}
    (hwrite : ∀ store : Store, store.records = records → (write store).records = after) :
    (execute write).Satisfies (Holds records) (fun _ => Holds after) halted :=
  fun _ world hholds => hwrite world.store.database hholds

variable {call : Store → α × Store}

theorem satisfies_perform (post : α → Prop) (hcall : ∀ store : Store, store.records = records →
      (call store).2.records = records ∧ post (call store).1) :
    (perform call).Satisfies (Holds records)
      (fun value world => Holds records world ∧ post value) halted :=
  fun _ world hholds => hcall world.store.database hholds

theorem satisfies_draw {draws : Nat} :
    (Call.draw : ServiceCall Nat).Satisfies (fun world => Holds records world ∧ world.draws = draws)
      (fun draw world => Holds records world ∧ draw = draws) halted :=
  fun _ _ hholds => hholds

theorem satisfies_calculateHashes (algorithm : String) (object : Object) :
    (calculateHashes algorithm object).Satisfies (Holds records) (fun _ => Holds records) halted :=
  Action.Satisfies.ite (fun _ _ _ => id) fun _ => Action.satisfies_pure fun _ => id

theorem satisfies_writeUpload (uploadId : String) (parts : Option (List (String × Bytes))) :
    (writeUpload uploadId parts).Satisfies (Holds records) (fun _ => Holds records) halted :=
  fun _ _ hholds => hholds

theorem satisfies_update
    (hcall : ∀ store : Store, store.records = records → (call store).2.records = after) :
    (perform call).Satisfies (Holds records) (fun _ => Holds after) halted :=
  fun _ world hholds => hcall world.store.database hholds

theorem satisfies_read (hcall : ∀ store : Store, (call store).2.records = store.records) :
    (perform call).Satisfies (Holds records) (fun _ => Holds records) halted :=
  fun _ world hholds => (hcall world.store.database).trans hholds

theorem satisfies_writeFile (name : String) (content : Option Bytes) :
    (writeFile name content).Satisfies (Holds records) (fun _ => Holds records) halted :=
  fun _ _ hholds => hholds

end ServiceCall

namespace S3Service

open ServiceCall

variable {surroundings : Surroundings} {now : Time} {records : Records}
variable {halted : World Storage → Prop}

theorem satisfies_send (delivery : Delivery)
    (hhalted : surroundings.Fails → ∀ world, Holds records world → halted world) :
    (send surroundings delivery).Satisfies (Holds records) (fun _ => Holds records) halted := by
  intro held world hholds
  cases hdeliver : surroundings.deliver delivery with
  | ok value =>
    rw [send, Action.run_bind]
    rw [hdeliver]
    exact hholds
  | error exn =>
    rw [send, Action.run_bind]
    rw [hdeliver]
    exact hhalted ⟨delivery, exn, hdeliver⟩ _ hholds

theorem satisfies_sendLambda (lambdaArn : String) (record : EventRecord)
    (hhalted : surroundings.Fails → ∀ world, Holds records world → halted world) :
    (sendLambdaInvocationRequest surroundings lambdaArn record).Satisfies (Holds records)
      (fun _ => Holds records) halted := by
  unfold sendLambdaInvocationRequest
  split
  next => exact satisfies_send _ hhalted
  next => exact Action.satisfies_pure fun _ => id

theorem satisfies_checkNotifications (hfaithful : surroundings.repository.IsFaithful)
    (region bucket key : String) (size : Int) (etag versionId event : String)
    (hhalted : surroundings.Fails → ∀ world, Holds records world → halted world) :
    (checkNotifications surroundings now region bucket key size etag versionId event).Satisfies
      (Holds records) (fun _ => Holds records) halted := by
  unfold checkNotifications
  apply Action.Satisfies.bind (satisfies_read (hfaithful.getBucketByRegionName now region bucket))
  intro bucketEntity
  apply Action.Satisfies.bind (Action.satisfies_forM _ ?_) fun _ =>
    Action.Satisfies.bind (Action.satisfies_forM _ ?_) fun _ => Action.satisfies_forM _ ?_
  · intro notification _
    exact Action.Satisfies.ite (fun _ => satisfies_send _ hhalted)
      fun _ => Action.satisfies_pure fun _ => id
  · intro notification _
    exact Action.Satisfies.ite (fun _ => satisfies_send _ hhalted)
      fun _ => Action.satisfies_pure fun _ => id
  · intro notification _
    exact Action.Satisfies.ite (fun _ => satisfies_sendLambda _ _ hhalted)
      fun _ => Action.satisfies_pure fun _ => id

theorem satisfies_deleteFile (bucket key internalName : String) :
    (deleteFile surroundings bucket key internalName).Satisfies (Holds records)
      (fun _ => Holds records) halted := by
  apply Action.Satisfies.ite
  · intro _
    apply Action.Satisfies.bind (satisfies_writeFile _ _)
    intro _
    exact Action.Satisfies.ite (fun _ _ _ => id) fun _ => Action.satisfies_pure fun _ => id
  · exact fun _ => Action.satisfies_pure fun _ => id

theorem satisfies_checkBucketExistence (hfaithful : surroundings.repository.IsFaithful)
    (region name : String)
    (hhalted : records.hasBucket region name = false → ∀ world, Holds records world →
      halted world) :
    (checkBucketExistence surroundings region name).Satisfies (Holds records)
      (fun _ world => Holds records world ∧ records.hasBucket region name = true) halted := by
  apply Action.Satisfies.bind (satisfies_query fun store hstore =>
    (hfaithful.bucketExists region name store).trans
      (congrArg (Records.hasBucket · region name) hstore))
  intro found
  apply Action.Satisfies.assuming
  rintro rfl
  cases hexists : records.hasBucket region name with
  | true => exact Action.satisfies_pure fun _ hholds => ⟨hholds, rfl⟩
  | false => exact Action.satisfies_raise (hhalted hexists)

end S3Service

end AwsMock.S3
