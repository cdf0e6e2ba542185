import RecordStore.Proofs.Redirects
import RecordStore.Proofs.Store

/-!
# Transitions of layouts

All that an operation can make of the slots of a store.  `Layout.Transition` has one constructor for each kind of change
and says what the slots are afterwards; what calls that failed have left undone shows in the slots alone.  Whatever holds
of the slots after any number of operations is proved by cases on it.
-/

namespace RecordStore.Layout

/-- How far the chain of a record was shortened that was moved to the slot `id`, when `committed` is the layout right
after the move: not at all, or its first slot leads to the new one, and the redirects `done` to the first slot. -/
inductive Shortened (fallible : Prop) (layout : Layout) (record : StoredRecord) (id : RecordId) (committed : Layout) :
    Layout → Prop
  | unmoved (hfirst : record.first = record.latest) : Shortened fallible layout record id committed committed
  | kept (hfirst : record.first ≠ record.latest) (hfallible : fallible) :
      Shortened fallible layout record id committed committed
  | shortened {capacity : Nat} {done : List Redirect} (hfirst : record.first ≠ record.latest)
      (hcapacity : (layout.header record.first).capacity = capacity)
      (hdone : ∀ redirect ∈ done, redirect.id ∈ record.ids ∧ redirect.id ≠ record.first ∧
        (layout.header redirect.id).capacity = redirect.capacity)
      (hall : ¬fallible → record.latest ∈ done.map (·.id)) :
      Shortened fallible layout record id committed
        ((committed.set record.first (.bare (.moved capacity id))).overwrite
          (fun redirect => .moved redirect.capacity record.first) done)

/-- What an operation makes of a layout and of the store that it represents. -/
inductive Transition (fallible : Prop) (layout : Layout) (store : Store) : Layout → Store → Prop
  | same (policy : CapacityPolicy) : Transition fallible layout store layout { store with policy }
  | inserted {base : Layout} {id : RecordId} {capacity stop : Nat} {payload : ByteArray}
      (hpadded : layout.Padded store.stop base id.offset) (hnew : store.newSlot capacity = .ok (id, stop)) :
      Transition fallible layout store (base.push id { header := .live capacity payload.size none, payload })
        { store with
          records := { latest := id, former := [], capacity, payload := some payload } :: store.records
          stop }
  | overwritten {before after : List StoredRecord} {record : StoredRecord} {payload old : ByteArray}
      (hrecords : store.records = before ++ record :: after) (hlive : record.payload = some old) :
      Transition fallible layout store
        (layout.set record.latest
          { header := .live record.capacity payload.size record.former.getLast?, payload })
        { store with records := before ++ record.overwritten payload :: after }
  | moved {before after : List StoredRecord} {record : StoredRecord} {base layout' : Layout} {id : RecordId}
      {capacity stop : Nat} {payload old : ByteArray} (hrecords : store.records = before ++ record :: after)
      (hlive : record.payload = some old) (hpadded : layout.Padded store.stop base id.offset)
      (hnew : store.newSlot capacity = .ok (id, stop))
      (hshortened : Shortened fallible layout record id
        ((base.push id { header := .live capacity payload.size (some record.first), payload }).set record.latest
          (.bare (.moved record.capacity id))) layout') :
      Transition fallible layout store layout'
        { store with records := before ++ record.moved id capacity payload :: after, stop }
  | deleted {before after : List StoredRecord} {record : StoredRecord} {length : Nat} {old : ByteArray}
      {done : List Redirect} (hrecords : store.records = before ++ record :: after) (hlive : record.payload = some old)
      (hdone : ∀ redirect ∈ done, redirect.id ∈ record.former ∧
        (layout.header redirect.id).capacity = redirect.capacity)
      (hall : ¬fallible → ∀ id ∈ record.former.getLast?, id ∈ done.map (·.id)) :
      Transition fallible layout store
        ((layout.set record.latest (.bare (.deleted record.capacity length false))).overwrite
          (fun redirect => .deleted redirect.capacity 0 true) done)
        { store with records := before ++ record.deleted :: after }

end RecordStore.Layout
