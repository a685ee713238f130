import NexusTier.Contract.RoundTrip
import NexusTier.Ingest.Invariant

/-!
# The members a document has to have

`contracts/topology-v1.schema.json` requires every member of every object.  `FetchTopology` asks for
far less: `encoding/json` leaves at zero what is missing, and `Validate` then turns down a wrong
schema version and ids that are nil.  So a document that is accepted has the members that say what
it is about (`Identified`), and need not have any other.

In particular the lists `machines` and `errors` may be missing.  The document is then accepted as one
with empty lists, and for the store a collection without machines and without errors means that all
machines are gone.

## What is here

* `struct_run_field` — what a field of a struct holds is what the values for it have been decoded
  to, one after the other, whatever else is in the documents.
* `Json.Identified` — the members that say what a topology, a machine and an instance are about.  A
  machine may have its own from several arrays: where the name `machines` comes twice, the elements
  of the second array are decoded over those of the first (`Json.elements`).
* `fetchTopology_requires` — what is accepted is identified, and would be accepted without either of
  the two lists.
* `unlisted_accepted` — documents that lack all else the schema requires.
-/

set_option autoImplicit false

namespace NexusTier

open Relational Decoder

namespace Json

/-- The values of the members for the field `name`, in documents that are decoded one after the
other into one variable. -/
def values (name : String) (documents : List Json) : List Json :=
  valuesOf name (documents.flatMap membersOf)

/-- There is a member `name`, and it is not `null`. -/
def Has (name : String) (documents : List Json) : Prop := ∃ v ∈ values name documents, v ≠ .null

/-- For each element of a slice, what has been decoded into it. -/
def elementsOf (values : List Json) : List (List Json) :=
  match values.getLast? with
  | some (.arr l) => (backing values).take l.length
  | _ => []

/-- For each element of the slice `name`, what has been decoded into it.  Where the name comes once,
this is an element of its array. -/
def elements (name : String) (documents : List Json) : List (List Json) :=
  elementsOf (values name documents)

/-- The document without the members `name`. -/
def without (name : String) : Json → Json
  | .obj l => .obj (l.filter fun e => foldName e.1 ≠ foldName name)
  | j => j

/-- An instance with its id. -/
structure InstanceIdentified (documents : List Json) : Prop where
  instanceID : Has "instance_id" documents

/-- A machine with the session and the id in it, and its instances. -/
structure MachineIdentified (documents : List Json) : Prop where
  machineID : Has "machine_id" (values "session" documents)
  instances : ∀ inst ∈ elements "instances" documents, InstanceIdentified inst

/-- A topology with the schema version and the id of the collection, and its machines. -/
structure Identified (document : Json) : Prop where
  schemaVersion : Has "schema_version" [document]
  collectionID : Has "collection_id" [document]
  machines : ∀ machine ∈ elements "machines" [document], MachineIdentified machine

end Json

namespace Decoder

section

variable {α β γ : Type} {d : Decoder β} {documents vs : List Json} {v : Json}

/-! ## One document after the other -/

theorem runFrom_concat {past : List Json} {old new : β} :
    d.runFrom past old (documents ++ [v]) = .ok new ↔
      ∃ x, d.runFrom past old documents = .ok x ∧ d.into (past ++ documents) x v = .ok new := by
  induction documents generalizing past old with
  | nil => simp [runFrom, bind_eq_ok]
  | cons j documents ih =>
    simp only [List.cons_append, runFrom, bind_eq_ok, ih, List.append_assoc, List.nil_append]
    constructor
    · rintro ⟨y, hy, x, hx, hnew⟩
      exact ⟨x, ⟨y, hy, hx⟩, hnew⟩
    · rintro ⟨x, ⟨y, hy, hx⟩, hnew⟩
      exact ⟨y, hy, x, hx, hnew⟩

theorem run_concat {new : β} : d.run (documents ++ [v]) = .ok new ↔
    ∃ x, d.run documents = .ok x ∧ d.into documents x v = .ok new :=
  runFrom_concat

/-- What a scalar holds has come from a value that is not `null`. -/
theorem exists_ne_null (hnull : ∀ past old, d.into past old .null = .ok old) {x : β}
    (h : d.run vs = .ok x) (hne : x ≠ d.zero) : ∃ v ∈ vs, v ≠ .null := by
  induction vs using List.reverseRecOn generalizing x with
  | nil => exact absurd (Except.ok.inj h).symm hne
  | append_singleton vs v ih =>
    obtain ⟨y, hy, hx⟩ := run_concat.1 h
    by_cases hv : v = .null
    · rw [hv, hnull] at hx
      obtain rfl := Except.ok.inj hx
      obtain ⟨w, hw, hwne⟩ := ih hy hne
      exact ⟨w, List.mem_append_left _ hw, hwne⟩
    · exact ⟨v, by simp, hv⟩

/-- What an array and `null` are decoded to. -/
theorem slice_into_eq_ok {past : List Json} {old new : Slice β}
    (h : (slice d).into past old v = .ok new) :
    v = .null ∧ new = none ∨ ∃ l bs, v = .arr l ∧
      ((overlay l (backing past)).take l.length).mapM d.run = .ok bs ∧ new = some bs := by
  cases v with
  | null => exact .inl ⟨rfl, (Except.ok.inj h).symm⟩
  | arr l =>
    have hmap : (((overlay l (backing past)).take l.length).mapM d.run).map some = .ok new := h
    cases hl : ((overlay l (backing past)).take l.length).mapM d.run with
    | error e => simp [hl, Except.map] at hmap
    | ok bs =>
      rw [hl] at hmap
      exact .inr ⟨l, bs, rfl, hl, (Except.ok.inj hmap).symm⟩
  | bool _ => cases h
  | int _ => cases h
  | dec _ => cases h
  | str _ => cases h
  | obj _ => cases h

/-- A slice holds what has been decoded into each of its elements. -/
theorem slice_run {s : Slice β} (h : (slice d).run vs = .ok s) :
    (Json.elementsOf vs).mapM d.run = .ok s.elems := by
  induction vs using List.reverseRecOn with
  | nil =>
    obtain rfl : none = s := Except.ok.inj h
    rfl
  | append_singleton vs v _ =>
    obtain ⟨old, -, hinto⟩ := run_concat.1 h
    rw [Json.elementsOf, List.getLast?_concat]
    obtain ⟨rfl, rfl⟩ | ⟨l, bs, rfl, hbs, rfl⟩ := slice_into_eq_ok hinto
    · rfl
    · have htake : (backing (vs ++ [.arr l])).take l.length =
          (overlay l (backing vs)).take l.length := by
        cases l with
        | nil => rfl
        | cons j l => simp [backing, List.foldl_append]
      show ((backing (vs ++ [.arr l])).take l.length).mapM d.run = .ok bs
      rw [htake, hbs]

/-! ## Structs -/

variable {fields : List (Field α)} {name : String} {a b : α} {seen l : List (String × Json)}

theorem findField_eq_some {f : Field α} (h : findField fields name = some f) :
    f ∈ fields ∧ foldName f.name = foldName name := by
  rcases Option.or_eq_some_iff.1 h with h | ⟨-, h⟩
  · have hname : f.name = name := by simpa using List.find?_some h
    exact ⟨List.mem_of_find?_eq_some h, by rw [hname]⟩
  · exact ⟨List.mem_of_find?_eq_some h, by simpa using List.find?_some h⟩

theorem field_into_eq_ok {get : α → β} {set : α → β → α} {past : List Json} :
    (field name get set d).into past a v = .ok b ↔
      ∃ x, d.into past (get a) v = .ok x ∧ b = set a x := by
  show (d.into past (get a) v).map (set a) = .ok b ↔ _
  cases d.into past (get a) v with
  | error e => simp [Except.map]
  | ok x => simp [Except.map, eq_comm]

theorem members_cons_eq_ok {rest : List (String × Json)} :
    members fields seen a ((name, v) :: rest) = .ok b ↔
      ∃ f a', findField fields name = some f ∧ f.into (valuesOf f.name seen) a v = .ok a' ∧
        members fields (seen ++ [(name, v)]) a' rest = .ok b := by
  rw [members]
  cases findField fields name with
  | none => simp
  | some f => simp [bind_eq_ok]

theorem valuesOf_concat {n : String} :
    valuesOf name (seen ++ [(n, v)]) =
      if foldName n = foldName name then valuesOf name seen ++ [v] else valuesOf name seen := by
  by_cases h : foldName n = foldName name <;> simp [valuesOf, h]

/-- The field leaves the part as it is. -/
def Field.Keeps (f : Field α) (g : α → γ) : Prop :=
  ∀ past a v a', f.into past a v = .ok a' → g a' = g a

/-- The field does the same whether a part is reset or not. -/
def Field.Ignores (f : Field α) (reset : α → α) : Prop :=
  ∀ past a v a', f.into past a v = .ok a' → f.into past (reset a) v = .ok (reset a')

section

variable {get : α → β} {set : α → β → α}

theorem keeps_field {g : α → γ} (h : ∀ a x, g (set a x) = g a) :
    (field name get set d).Keeps g := by
  intro past a v a' hinto
  obtain ⟨x, -, rfl⟩ := field_into_eq_ok.1 hinto
  exact h a x

theorem ignores_field {r : α → α} (hget : ∀ a, get (r a) = get a)
    (hset : ∀ a x, set (r a) x = r (set a x)) : (field name get set d).Ignores r := by
  intro past a v a' hinto
  obtain ⟨x, hx, rfl⟩ := field_into_eq_ok.1 hinto
  exact field_into_eq_ok.2 ⟨x, by rwa [hget], (hset a x).symm⟩

/-- The members of an object keep it that a field holds what the values for it are decoded to. -/
theorem members_run_field (hget : ∀ a x, get (set a x) = x)
    (hfields : ∀ f ∈ fields, f = field name get set d ∨
      foldName f.name ≠ foldName name ∧ f.Keeps get)
    (h : members fields seen a l = .ok b) (ha : d.run (valuesOf name seen) = .ok (get a)) :
    d.run (valuesOf name (seen ++ l)) = .ok (get b) := by
  induction l generalizing seen a with
  | nil =>
    obtain rfl : a = b := Except.ok.inj h
    simpa using ha
  | cons e l ih =>
    obtain ⟨n, v⟩ := e
    obtain ⟨f, a', hfind, hinto, hrest⟩ := members_cons_eq_ok.1 h
    obtain ⟨hf, hname⟩ := findField_eq_some hfind
    rw [List.append_cons]
    refine ih hrest ?_
    rw [valuesOf_concat]
    obtain rfl | ⟨hother, hkeeps⟩ := hfields f hf
    · obtain ⟨x, hx, rfl⟩ := field_into_eq_ok.1 hinto
      have hn : foldName n = foldName name := hname.symm
      rw [if_pos hn, hget]
      exact run_concat.2 ⟨get a, ha, hx⟩
    · rw [if_neg fun hn => hother (hname.trans hn), hkeeps _ a v a' hinto]
      exact ha

variable {zero : α} {j : Json}

theorem struct_into_eq_ok {past : List Json} (h : (struct zero fields).into past a j = .ok b) :
    j = .null ∧ b = a ∨
      ∃ l, j = .obj l ∧ members fields (past.flatMap membersOf) a l = .ok b := by
  cases j with
  | null => exact .inl ⟨rfl, (Except.ok.inj h).symm⟩
  | obj l => exact .inr ⟨l, rfl, h⟩
  | bool _ => cases h
  | int _ => cases h
  | dec _ => cases h
  | str _ => cases h
  | arr _ => cases h

/-- **A field holds what the values for it have been decoded to**, one after the other. -/
theorem struct_run_field (set : α → β → α) (hget : ∀ a x, get (set a x) = x) (hzero : get zero = d.zero)
    (hfields : ∀ f ∈ fields, f = field name get set d ∨
      foldName f.name ≠ foldName name ∧ f.Keeps get)
    (h : (struct zero fields).run documents = .ok b) :
    d.run (Json.values name documents) = .ok (get b) := by
  induction documents using List.reverseRecOn generalizing b with
  | nil =>
    obtain rfl : zero = b := Except.ok.inj h
    exact congrArg Except.ok hzero.symm
  | append_singleton documents j ih =>
    obtain ⟨a, ha, hinto⟩ := run_concat.1 h
    rw [Json.values, List.flatMap_append, List.flatMap_singleton]
    obtain ⟨rfl, rfl⟩ | ⟨l, rfl, hl⟩ := struct_into_eq_ok hinto
    · simpa [membersOf, Json.values] using ih ha
    · exact members_run_field hget hfields hl (ih ha)

end

/-- Without the members of one name the other fields are as they were. -/
theorem members_without {r : α → α}
    (hfields : ∀ f ∈ fields, foldName f.name = foldName name ∧ f.Keeps r ∨
      foldName f.name ≠ foldName name ∧ f.Ignores r)
    (h : members fields seen a l = .ok b) :
    members fields (seen.filter fun e => foldName e.1 ≠ foldName name) (r a)
      (l.filter fun e => foldName e.1 ≠ foldName name) = .ok (r b) := by
  induction l generalizing seen a with
  | nil =>
    obtain rfl : a = b := Except.ok.inj h
    rfl
  | cons e l ih =>
    obtain ⟨n, v⟩ := e
    obtain ⟨f, a', hfind, hinto, hrest⟩ := members_cons_eq_ok.1 h
    obtain ⟨hf, hname⟩ := findField_eq_some hfind
    have ih' := ih hrest
    rw [List.filter_append] at ih'
    obtain ⟨hsame, hkeeps⟩ | ⟨hother, hignores⟩ := hfields f hf
    · have hn : foldName n = foldName name := hname.symm.trans hsame
      rw [List.filter_cons_of_neg (by simpa using hn), ← hkeeps _ a v a' hinto]
      simpa [hn] using ih'
    · have hn : foldName n ≠ foldName name := fun heq => hother (hname.trans heq)
      -- the values for the other field are all still there
      have hvalues : valuesOf f.name (seen.filter fun e => foldName e.1 ≠ foldName name) =
          valuesOf f.name seen := by
        rw [valuesOf, valuesOf, List.filter_filter]
        refine congrArg (List.map Prod.snd) (List.filter_congr fun e _ => ?_)
        by_cases he : foldName e.1 = foldName f.name
        · simp [he, hother]
        · simp [he]
      rw [List.filter_cons_of_pos (by simpa using hn)]
      refine members_cons_eq_ok.2 ⟨f, r a', hfind, ?_, by simpa [hn] using ih'⟩
      rw [hvalues]
      exact hignores _ a v a' hinto

theorem struct_without {zero : α} {j : Json} {r : α → α}
    (hfields : ∀ f ∈ fields, foldName f.name = foldName name ∧ f.Keeps r ∨
      foldName f.name ≠ foldName name ∧ f.Ignores r)
    (h : (struct zero fields).decode j = .ok b) (hzero : r zero = zero) :
    (struct zero fields).decode (j.without name) = .ok (r b) := by
  obtain ⟨rfl, rfl⟩ | ⟨l, rfl, hl⟩ := struct_into_eq_ok h
  · exact congrArg Except.ok hzero.symm
  · have hrest : members fields [] (r zero) (l.filter fun e => foldName e.1 ≠ foldName name) =
        .ok (r b) := members_without hfields hl
    rwa [hzero] at hrest

end

end Decoder

/-! ## The types of the contract -/

section

variable {C : Codec} {documents : List Json} {j : Json}

theorem Instance.identified {inst : Instance} (h : (Instance.decoder C).run documents = .ok inst)
    (hid : inst.instanceID ≠ Uuid.nil) : Json.InstanceIdentified documents := by
  have hrun : (uuid C).run (Json.values "instance_id" documents) = .ok inst.instanceID := by
    refine struct_run_field (fun i v => { i with instanceID := v }) (fun _ _ => rfl) rfl ?_ h
    simp only [List.forall_mem_cons]
    refine ⟨.inl trivial, ?_, ?_, ?_, ?_, ?_, by simp⟩ <;>
      exact .inr ⟨by simp only [field]; decide, keeps_field fun _ _ => rfl⟩
  exact ⟨exists_ne_null (fun _ _ => rfl) hrun hid⟩

theorem Session.has_machineID {session : Session}
    (h : (Session.decoder C).run documents = .ok session) (hid : session.machineID ≠ Uuid.nil) :
    Json.Has "machine_id" documents := by
  have hrun : (uuid C).run (Json.values "machine_id" documents) = .ok session.machineID := by
    refine struct_run_field (fun s v => { s with machineID := v }) (fun _ _ => rfl) rfl ?_ h
    simp only [List.forall_mem_cons]
    refine ⟨.inl trivial, ?_, ?_, ?_, ?_, ?_, ?_, ?_, ?_, by simp⟩ <;>
      exact .inr ⟨by simp only [field]; decide, keeps_field fun _ _ => rfl⟩
  exact exists_ne_null (fun _ _ => rfl) hrun hid

theorem Machine.identified {machine : Machine}
    (h : (Machine.decoder C).run documents = .ok machine) {completedAtMS : UInt64}
    (hvalid : machine.Valid completedAtMS) : Json.MachineIdentified documents := by
  constructor
  · have hsession : (Session.decoder C).run (Json.values "session" documents) =
        .ok machine.session := by
      refine struct_run_field (fun m v => { m with session := v }) (fun _ _ => rfl) rfl ?_ h
      simp only [List.forall_mem_cons]
      refine ⟨.inl trivial, ?_, ?_, ?_, by simp⟩ <;>
        exact .inr ⟨by simp only [field]; decide, keeps_field fun _ _ => rfl⟩
    exact Session.has_machineID hsession hvalid.machineID_ne
  · have hinstances : (slice (Instance.decoder C)).run (Json.values "instances" documents) =
        .ok machine.instances := by
      refine struct_run_field (fun m v => { m with instances := v }) (fun _ _ => rfl) rfl ?_ h
      simp only [List.forall_mem_cons]
      refine ⟨?_, ?_, .inl trivial, ?_, by simp⟩ <;>
        exact .inr ⟨by simp only [field]; decide, keeps_field fun _ _ => rfl⟩
    intro inst hinst
    obtain ⟨i, hi, hrun⟩ := exists_of_mapM_eq_ok (slice_run hinstances) inst hinst
    exact Instance.identified hrun (hvalid.instances i hi).instanceID_ne

theorem Snapshot.identified {s : Snapshot} (h : (Snapshot.decoder C).decode j = .ok s)
    (hvalid : s.Valid) : j.Identified := by
  rw [← run_singleton] at h
  constructor
  · have hrun : string.run (Json.values "schema_version" [j]) = .ok s.schemaVersion := by
      refine struct_run_field (fun s v => { s with schemaVersion := v }) (fun _ _ => rfl) rfl ?_ h
      simp only [List.forall_mem_cons]
      refine ⟨.inl trivial, ?_, ?_, ?_, ?_, ?_, ?_, by simp⟩ <;>
        exact .inr ⟨by simp only [field]; decide, keeps_field fun _ _ => rfl⟩
    refine exists_ne_null (fun _ _ => rfl) hrun ?_
    rw [hvalid.schema]
    decide
  · have hrun : (uuid C).run (Json.values "collection_id" [j]) = .ok s.collectionID := by
      refine struct_run_field (fun s v => { s with collectionID := v }) (fun _ _ => rfl) rfl ?_ h
      simp only [List.forall_mem_cons]
      refine ⟨?_, .inl trivial, ?_, ?_, ?_, ?_, ?_, by simp⟩ <;>
        exact .inr ⟨by simp only [field]; decide, keeps_field fun _ _ => rfl⟩
    exact exists_ne_null (fun _ _ => rfl) hrun hvalid.collectionID_ne
  · have hrun : (slice (Machine.decoder C)).run (Json.values "machines" [j]) = .ok s.machines := by
      refine struct_run_field (fun s v => { s with machines := v }) (fun _ _ => rfl) rfl ?_ h
      simp only [List.forall_mem_cons]
      refine ⟨?_, ?_, ?_, ?_, ?_, .inl trivial, ?_, by simp⟩ <;>
        exact .inr ⟨by simp only [field]; decide, keeps_field fun _ _ => rfl⟩
    intro machine hmachine
    obtain ⟨m, hm, hrun⟩ := exists_of_mapM_eq_ok (slice_run hrun) machine hmachine
    exact Machine.identified hrun (hvalid.machines m hm)

theorem Snapshot.without_machines {s : Snapshot} (h : (Snapshot.decoder C).decode j = .ok s) :
    (Snapshot.decoder C).decode (j.without "machines") = .ok { s with machines := none } := by
  refine struct_without (r := fun s : Snapshot => { s with machines := none }) ?_ h rfl
  simp only [List.forall_mem_cons]
  refine ⟨?_, ?_, ?_, ?_, ?_, .inl ⟨rfl, keeps_field fun _ _ => rfl⟩, ?_, by simp⟩ <;>
    exact .inr ⟨by simp only [field]; decide, ignores_field (fun _ => rfl) fun _ _ => rfl⟩

theorem Snapshot.without_errors {s : Snapshot} (h : (Snapshot.decoder C).decode j = .ok s) :
    (Snapshot.decoder C).decode (j.without "errors") = .ok { s with errors := none } := by
  refine struct_without (r := fun s : Snapshot => { s with errors := none }) ?_ h rfl
  simp only [List.forall_mem_cons]
  refine ⟨?_, ?_, ?_, ?_, ?_, ?_, .inl ⟨rfl, keeps_field fun _ _ => rfl⟩, by simp⟩ <;>
    exact .inr ⟨by simp only [field]; decide, ignores_field (fun _ => rfl) fun _ _ => rfl⟩

/-! ## `FetchTopology` -/

theorem mapError_eq_ok {ε ε' α : Type} {x : Except ε α} {f : ε → ε'} {a : α} :
    x.mapError f = .ok a ↔ x = .ok a := by
  cases x with
  | error e => simp [Except.mapError]
  | ok b => simp [Except.mapError]

theorem fetchTopology_eq_ok {response : TopologyResponse} {s : Snapshot} :
    fetchTopology C response = .ok s ↔ response.statusCode = 200 ∧ ∃ document,
      response.body = [document] ∧ (Snapshot.decoder C).decode document = .ok s ∧ s.Valid := by
  obtain ⟨statusCode, body⟩ := response
  by_cases hstatus : statusCode = 200
  · subst hstatus
    cases body with
    | nil => simp [fetchTopology]
    | cons document trailing =>
      by_cases htrailing : trailing = []
      · subst htrailing
        simp only [fetchTopology, ne_eq, not_true_eq_false, if_false, bind_eq_ok, mapError_eq_ok,
          pure_eq_ok]
        constructor
        · rintro ⟨decoded, hdecode, _, hvalid, rfl⟩
          exact ⟨trivial, document, rfl, hdecode, Snapshot.validate_eq_ok.1 hvalid⟩
        · rintro ⟨-, _, hbody, hdecode, hvalid⟩
          obtain rfl := List.singleton_injective hbody
          exact ⟨s, hdecode, (), Snapshot.validate_eq_ok.2 hvalid, rfl⟩
      · have hrefused : ∀ decoded, fetchTopology C ⟨200, document :: trailing⟩ ≠ .ok decoded := by
          intro decoded hok
          simp [fetchTopology, htrailing, mapError_eq_ok, throw, throwThe,
            MonadExceptOf.throw] at hok
        simp [hrefused, htrailing]
  · simp [fetchTopology, hstatus]

/-- **What acceptance says about the document.**  It has the members that say what it is about.  The
lists of machines and of errors it need not have: without either of them it is accepted too, as one
with no list there. -/
theorem fetchTopology_requires {response : TopologyResponse} {s : Snapshot}
    (h : fetchTopology C response = .ok s) :
    ∃ document, response.body = [document] ∧ document.Identified ∧
      fetchTopology C ⟨200, [document.without "machines"]⟩ = .ok { s with machines := none } ∧
      fetchTopology C ⟨200, [document.without "errors"]⟩ = .ok { s with errors := none } := by
  obtain ⟨-, document, hbody, hdecode, hvalid⟩ := fetchTopology_eq_ok.1 h
  refine ⟨document, hbody, Snapshot.identified hdecode hvalid, ?_, ?_⟩
  · refine fetchTopology_eq_ok.2 ⟨rfl, _, rfl, Snapshot.without_machines hdecode, ?_⟩
    exact { hvalid with machines := fun m hm => absurd hm List.not_mem_nil }
  · refine fetchTopology_eq_ok.2 ⟨rfl, _, rfl, Snapshot.without_errors hdecode, ?_⟩
    exact { hvalid with }

end

/-! ### Documents that lack what the schema requires -/

/-- A document without the two lists. -/
def unlisted : Json :=
  .obj
    [("schema_version", .str schemaVersion),
     ("collection_id", .ofUuid 0xc2),
     ("started_at_ms", .ofUInt64 3000),
     ("completed_at_ms", .ofUInt64 4000),
     ("collected_at_ms", .ofUInt64 4000)]

/-- What it is read as. -/
def unlistedSnapshot : Snapshot := ⟨schemaVersion, 0xc2, 3000, 4000, 4000, none, none⟩

def unlistedEncoding : Encoding :=
  .recorded
    [(sampleReport.payload,
        .ofFin 0x9a34ab897a0b42ca4ce4417db93346b710953fbd6b5bad8b4c0cdfae90045624),
      (unlistedSnapshot.payload,
        .ofFin 0x85db354f8bad011798225e3642829896c3723eefb2b8fb9d46fd777d45d60dd8)]

theorem fetchTopology_requires_unlisted :
    fetchTopology plainCodec ⟨200, [unlisted]⟩ = .ok unlistedSnapshot ∧ unlisted.Identified := by
  have haccepted : fetchTopology plainCodec ⟨200, [unlisted]⟩ = .ok unlistedSnapshot := by
    decide +kernel
  obtain ⟨document, hbody, hid, -, -⟩ := fetchTopology_requires haccepted
  obtain rfl : unlisted = document := by simpa using hbody
  exact ⟨haccepted, hid⟩

/-- A second array goes over the first, so its machine has the session of the machine before. -/
example : (fetchTopology plainCodec ⟨200,
    [.obj
      [("schema_version", .str schemaVersion),
       ("collection_id", .ofUuid 0xc2),
       ("machines", .arr [.obj [("session", .obj [("machine_id", .ofUuid 0xa1)])]]),
       ("machines", .arr [.obj []])]]⟩).map (fun s =>
    s.machines.elems.map fun m => m.session.machineID) = .ok [0xa1] := by decide +kernel

/-- An object of each type, with nothing in it but the members of `Identified`. -/
def skeleton : Json :=
  .obj
    [("schema_version", .str schemaVersion),
     ("collection_id", .ofUuid 0xc2),
     ("machines", .arr
       [.obj
         [("session", .obj [("machine_id", .ofUuid 0xa1), ("device", .obj [])]),
          ("instances", .arr
            [.obj
              [("instance_id", .ofUuid 0xb1),
               ("node", .obj []),
               ("peers", .arr [.obj []]),
               ("metrics", .arr [.obj []])]])]]),
     ("errors", .arr [.obj []])]

/-- Zero in all other fields. -/
def skeletonSnapshot : Snapshot where
  schemaVersion := schemaVersion
  collectionID := 0xc2
  startedAtMS := 0
  completedAtMS := 0
  collectedAtMS := 0
  machines := some
    [{ session := ⟨0xa1, "", "", "", "", 0, 0, none, some ⟨"", "", ""⟩⟩
       observedAtMS := 0
       instances := some
        [{ instanceID := 0xb1
           observedAtMS := 0
           node := some ⟨0, "", "", none, none, ""⟩
           peers := some [⟨0, none, "", 0, false, 0, none, none, none, none, none, ""⟩]
           metrics := some [⟨"", 0, none⟩]
           errors := none }]
       errors := none }]
  errors := some [⟨"", "", ""⟩]

/-- **Documents may lack any other member that the schema requires.**  Without the lists of machines
and of errors a document is taken for a collection that came through and met no machine, and the
machine that was there is gone. -/
theorem unlisted_accepted :
    Json.values "machines" [unlisted] = [] ∧ Json.values "errors" [unlisted] = [] ∧
      fetchTopology plainCodec ⟨200, [unlisted]⟩ = .ok unlistedSnapshot ∧
      ((execAll unlistedEncoding [.ingest 5000000 sampleReport] Db.empty).machines[(0xa1 : Uuid)]?.map
        fun row => row.active) = some true ∧
      ((execAll unlistedEncoding [.ingest 5000000 sampleReport, .ingest 6000000 unlistedSnapshot]
        Db.empty).machines[(0xa1 : Uuid)]?.map fun row => row.active) = some false ∧
      fetchTopology plainCodec ⟨200, [skeleton]⟩ = .ok skeletonSnapshot := by
  refine ⟨by decide +kernel, by decide +kernel, by decide +kernel, by decide +kernel,
    by decide +kernel, by decide +kernel⟩

end NexusTier
