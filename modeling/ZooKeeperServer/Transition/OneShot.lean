import Mathlib.Data.List.Nodup

namespace ZooKeeperServer.Transition.OneShot

/-! The history of entries that are issued at a place under a key, withdrawn or taken
there, and spent at most once after they have been taken. -/

universe u v

inductive Event (Place : Type u) (Key : Type v)
  | issued (place : Place) (key : Key)
  | withdrawn (place : Place) (key : Key)
  | taken (place : Place) (key : Key)
  | spent (place : Place) (key : Key)
  deriving DecidableEq

variable {Place : Type u} {Key : Type v}

def Event.issuedKey : Event Place Key → Option Key
  | .issued _ key => some key
  | _ => none

def Event.spentKey : Event Place Key → Option Key
  | .spent _ key => some key
  | _ => none

def issuedKeys (log : List (Event Place Key)) : List Key :=
  log.filterMap Event.issuedKey

def spentKeys (log : List (Event Place Key)) : List Key :=
  log.filterMap Event.spentKey

/-- Issued, and neither withdrawn nor taken since. -/
def Outstanding (log : List (Event Place Key)) (place : Place) (key : Key) :
    Prop :=
  ∃ before after, log = before ++ .issued place key :: after ∧
    .withdrawn place key ∉ after ∧ .taken place key ∉ after

/-- What a history may be: keys are not issued twice, what is taken is outstanding,
and what is spent has been taken and not been spent. -/
inductive Lawful : List (Event Place Key) → Prop
  | nil : Lawful []
  | issued {log : List (Event Place Key)} (lawful : Lawful log)
      (place : Place) {key : Key} (fresh : key ∉ issuedKeys log) :
      Lawful (log ++ [.issued place key])
  | withdrawn {log : List (Event Place Key)} (lawful : Lawful log)
      (place : Place) (key : Key) : Lawful (log ++ [.withdrawn place key])
  | taken {log : List (Event Place Key)} (lawful : Lawful log)
      {place : Place} {key : Key} (outstanding : Outstanding log place key) :
      Lawful (log ++ [.taken place key])
  | spent {log : List (Event Place Key)} (lawful : Lawful log)
      {place : Place} {key : Key} (held : .taken place key ∈ log)
      (unspent : .spent place key ∉ log) : Lawful (log ++ [.spent place key])

section Histories

variable {log : List (Event Place Key)} {event : Event Place Key}
  {place other : Place} {key : Key}

theorem mem_issuedKeys :
    key ∈ issuedKeys log ↔ ∃ place, .issued place key ∈ log := by
  simp only [issuedKeys, List.mem_filterMap]
  constructor
  · rintro ⟨event, listed, same⟩
    cases event with
    | issued place held =>
        cases same
        exact ⟨place, listed⟩
    | _ => cases same
  · rintro ⟨place, listed⟩
    exact ⟨_, listed, rfl⟩

theorem mem_spentKeys :
    key ∈ spentKeys log ↔ ∃ place, .spent place key ∈ log := by
  simp only [spentKeys, List.mem_filterMap]
  constructor
  · rintro ⟨event, listed, same⟩
    cases event with
    | spent place held =>
        cases same
        exact ⟨place, listed⟩
    | _ => cases same
  · rintro ⟨place, listed⟩
    exact ⟨_, listed, rfl⟩

@[simp] theorem issuedKeys_concat :
    issuedKeys (log ++ [event]) = issuedKeys log ++ event.issuedKey.toList := by
  cases event with
  | _ => simp [issuedKeys, Event.issuedKey]

@[simp] theorem spentKeys_concat :
    spentKeys (log ++ [event]) = spentKeys log ++ event.spentKey.toList := by
  cases event with
  | _ => simp [spentKeys, Event.spentKey]

theorem not_outstanding_nil : ¬ Outstanding [] place key := by
  rintro ⟨before, after, shape, _⟩
  simp at shape

theorem outstanding_concat :
    Outstanding (log ++ [event]) place key ↔
      event = .issued place key ∨ (Outstanding log place key ∧
        event ≠ .withdrawn place key ∧ event ≠ .taken place key) := by
  constructor
  · rintro ⟨before, after, shape, kept, left⟩
    rcases List.eq_nil_or_concat after with rfl | ⟨shorter, last, rfl⟩
    · exact .inl (List.singleton_inj.mp (List.append_inj' shape rfl).2)
    · have regrouped : log ++ [event] =
          (before ++ .issued place key :: shorter) ++ [last] := by
        simpa using shape
      obtain ⟨same, single⟩ := List.append_inj' regrouped rfl
      cases single
      simp only [List.concat_eq_append, List.mem_append, List.mem_singleton,
        not_or] at kept left
      exact .inr ⟨⟨before, shorter, same, kept.1, left.1⟩, Ne.symm kept.2,
        Ne.symm left.2⟩
  · rintro (rfl | ⟨⟨before, after, rfl, kept, left⟩, stays, remains⟩)
    · exact ⟨log, [], rfl, List.not_mem_nil, List.not_mem_nil⟩
    · refine ⟨before, after ++ [event], by simp, ?_, ?_⟩
      · simp [kept, Ne.symm stays]
      · simp [left, Ne.symm remains]

theorem not_outstanding_concat (other : event ≠ .issued place key)
    (gone : ¬ Outstanding log place key) :
    ¬ Outstanding (log ++ [event]) place key := by
  rw [outstanding_concat]
  rintro (same | ⟨outstanding, _⟩)
  · exact other same
  · exact gone outstanding

theorem not_outstanding_append {events : List (Event Place Key)}
    (quiet : .issued place key ∉ events) (gone : ¬ Outstanding log place key) :
    ¬ Outstanding (log ++ events) place key := by
  induction events generalizing log with
  | nil => simpa using gone
  | cons event rest ih =>
      rw [List.append_cons]
      refine ih (fun later => quiet (List.mem_cons_of_mem _ later)) ?_
      refine not_outstanding_concat (fun same => quiet ?_) gone
      rw [same]
      exact List.mem_cons_self

theorem Outstanding.append {events : List (Event Place Key)}
    (outstanding : Outstanding log place key)
    (kept : .withdrawn place key ∉ events) (untaken : .taken place key ∉ events) :
    Outstanding (log ++ events) place key := by
  obtain ⟨before, after, rfl, unwithdrawn, held⟩ := outstanding
  refine ⟨before, after ++ events, by simp, ?_, ?_⟩
  · exact fun member => (List.mem_append.mp member).elim unwithdrawn kept
  · exact fun member => (List.mem_append.mp member).elim held untaken

theorem Outstanding.issued (outstanding : Outstanding log place key) :
    .issued place key ∈ log := by
  obtain ⟨before, after, rfl, _⟩ := outstanding
  simp

end Histories

namespace Lawful

variable {log : List (Event Place Key)} {place other : Place} {key : Key}

theorem nodup_issuedKeys (lawful : Lawful log) : (issuedKeys log).Nodup := by
  induction lawful with
  | nil => exact List.nodup_nil
  | issued lawful place fresh ih =>
      simpa [Event.issuedKey] using List.Nodup.concat fresh ih
  | withdrawn lawful place key ih => simpa [Event.issuedKey] using ih
  | taken lawful outstanding ih => simpa [Event.issuedKey] using ih
  | spent lawful held unspent ih => simpa [Event.issuedKey] using ih

theorem place_unique (lawful : Lawful log)
    (here : .issued place key ∈ log) (there : .issued other key ∈ log) :
    place = other := by
  induction lawful with
  | nil => cases here
  | @issued log lawful latest held fresh ih =>
      rcases List.mem_append.mp here with earlier | now
      · rcases List.mem_append.mp there with before | last
        · exact ih earlier before
        · cases List.mem_singleton.mp last
          exact absurd (mem_issuedKeys.mpr ⟨_, earlier⟩) fresh
      · cases List.mem_singleton.mp now
        rcases List.mem_append.mp there with before | last
        · exact absurd (mem_issuedKeys.mpr ⟨_, before⟩) fresh
        · cases List.mem_singleton.mp last
          rfl
  | withdrawn lawful place key ih =>
      exact ih (by simpa using here) (by simpa using there)
  | taken lawful outstanding ih =>
      exact ih (by simpa using here) (by simpa using there)
  | spent lawful held unspent ih =>
      exact ih (by simpa using here) (by simpa using there)

theorem issued_of_taken (lawful : Lawful log)
    (taken : .taken place key ∈ log) : .issued place key ∈ log := by
  induction lawful with
  | nil => cases taken
  | taken lawful outstanding ih =>
      rcases List.mem_append.mp taken with earlier | now
      · exact List.mem_append_left _ (ih earlier)
      · cases List.mem_singleton.mp now
        exact List.mem_append_left _ outstanding.issued
  | issued lawful place fresh ih =>
      exact List.mem_append_left _ (ih (by simpa using taken))
  | withdrawn lawful place key ih =>
      exact List.mem_append_left _ (ih (by simpa using taken))
  | spent lawful held unspent ih =>
      exact List.mem_append_left _ (ih (by simpa using taken))

theorem taken_of_spent (lawful : Lawful log)
    (spent : .spent place key ∈ log) : .taken place key ∈ log := by
  induction lawful with
  | nil => cases spent
  | spent lawful held unspent ih =>
      rcases List.mem_append.mp spent with earlier | now
      · exact List.mem_append_left _ (ih earlier)
      · cases List.mem_singleton.mp now
        exact List.mem_append_left _ held
  | issued lawful place fresh ih =>
      exact List.mem_append_left _ (ih (by simpa using spent))
  | withdrawn lawful place key ih =>
      exact List.mem_append_left _ (ih (by simpa using spent))
  | taken lawful outstanding ih =>
      exact List.mem_append_left _ (ih (by simpa using spent))

theorem nodup_spentKeys (lawful : Lawful log) : (spentKeys log).Nodup := by
  induction lawful with
  | nil => exact List.nodup_nil
  | @spent log lawful place key held unspent ih =>
      have fresh : key ∉ spentKeys log := by
        intro listed
        obtain ⟨other, spent⟩ := mem_spentKeys.mp listed
        have same := lawful.place_unique (lawful.issued_of_taken held)
          (lawful.issued_of_taken (lawful.taken_of_spent spent))
        exact unspent (same ▸ spent)
      simpa [Event.spentKey] using List.Nodup.concat fresh ih
  | issued lawful place fresh ih => simpa [Event.spentKey] using ih
  | withdrawn lawful place key ih => simpa [Event.spentKey] using ih
  | taken lawful outstanding ih => simpa [Event.spentKey] using ih

theorem count_spent [DecidableEq Place] [DecidableEq Key] (lawful : Lawful log)
    (spent : .spent place key ∈ log) : log.count (.spent place key) = 1 := by
  induction lawful with
  | nil => cases spent
  | issued lawful latest fresh ih =>
      simpa [List.count_append] using ih (by simpa using spent)
  | withdrawn lawful latest held ih =>
      simpa [List.count_append] using ih (by simpa using spent)
  | taken lawful outstanding ih =>
      simpa [List.count_append] using ih (by simpa using spent)
  | spent lawful held unspent ih =>
      rcases List.mem_append.mp spent with earlier | now
      · rw [List.count_append, ih earlier, List.count_eq_zero_of_not_mem]
        exact fun again => unspent (List.mem_singleton.mp again ▸ earlier)
      · cases List.mem_singleton.mp now
        simp [List.count_append, List.count_eq_zero_of_not_mem unspent]

theorem not_outstanding_of_taken (lawful : Lawful log)
    (taken : .taken place key ∈ log) : ¬ Outstanding log place key := by
  induction lawful with
  | nil => cases taken
  | @issued log lawful latest held fresh ih =>
      have earlier : .taken place key ∈ log := by simpa using taken
      refine not_outstanding_concat (fun same => ?_) (ih earlier)
      cases same
      exact fresh (mem_issuedKeys.mpr ⟨_, lawful.issued_of_taken earlier⟩)
  | withdrawn lawful latest held ih =>
      exact not_outstanding_concat (by simp) (ih (by simpa using taken))
  | @taken log lawful latest held since ih =>
      rcases List.mem_append.mp taken with earlier | now
      · exact not_outstanding_concat (by simp) (ih earlier)
      · rw [outstanding_concat]
        rintro (same | ⟨_, _, other⟩)
        · cases same
        · exact other (List.mem_singleton.mp now).symm
  | spent lawful held unspent ih =>
      exact not_outstanding_concat (by simp) (ih (by simpa using taken))

theorem taken_origin (lawful : Lawful log) (taken : .taken place key ∈ log) :
    ∃ earlier later, log = earlier ++ .taken place key :: later ∧
      Outstanding earlier place key := by
  have extend {log : List (Event Place Key)} (event : Event Place Key)
      (found : ∃ earlier later, log = earlier ++ .taken place key :: later ∧
        Outstanding earlier place key) :
      ∃ earlier later, log ++ [event] = earlier ++ .taken place key :: later ∧
        Outstanding earlier place key := by
    obtain ⟨earlier, later, rfl, outstanding⟩ := found
    exact ⟨earlier, later ++ [event], by simp, outstanding⟩
  induction lawful with
  | nil => cases taken
  | taken lawful outstanding ih =>
      rcases List.mem_append.mp taken with earlier | now
      · exact extend _ (ih earlier)
      · cases List.mem_singleton.mp now
        exact ⟨_, [], rfl, outstanding⟩
  | issued lawful place fresh ih => exact extend _ (ih (by simpa using taken))
  | withdrawn lawful place key ih => exact extend _ (ih (by simpa using taken))
  | spent lawful held unspent ih => exact extend _ (ih (by simpa using taken))

end Lawful

/-- Withdrawn after it was issued and before it was taken. -/
def Withdrawn (log : List (Event Place Key)) (place : Place) (key : Key) :
    Prop :=
  ∃ before after, log = before ++ .withdrawn place key :: after ∧
    .issued place key ∈ before ∧ .taken place key ∉ before

structure Proper (log : List (Event Place Key)) : Prop where
  fresh : (issuedKeys log).Nodup
  once : (spentKeys log).Nodup
  origin : ∀ before after place key,
    log = before ++ .spent place key :: after →
      ∃ earlier later, before = earlier ++ .taken place key :: later ∧
        Outstanding earlier place key
  withdrawn : ∀ place key, Withdrawn log place key →
    .taken place key ∉ log ∧ .spent place key ∉ log

section Consequences

variable {log : List (Event Place Key)} {event : Event Place Key}
  {place : Place} {key : Key}

theorem withdrawn_concat :
    Withdrawn (log ++ [event]) place key ↔
      (event = .withdrawn place key ∧ .issued place key ∈ log ∧
        .taken place key ∉ log) ∨ Withdrawn log place key := by
  constructor
  · rintro ⟨before, after, shape, issued, kept⟩
    rcases List.eq_nil_or_concat after with rfl | ⟨shorter, last, rfl⟩
    · obtain ⟨rfl, single⟩ := List.append_inj' shape rfl
      exact .inl ⟨List.singleton_inj.mp single, issued, kept⟩
    · have regrouped : log ++ [event] =
          (before ++ .withdrawn place key :: shorter) ++ [last] := by
        simpa using shape
      exact .inr ⟨before, shorter, (List.append_inj' regrouped rfl).1, issued,
        kept⟩
  · rintro (⟨rfl, issued, kept⟩ | ⟨before, after, rfl, issued, kept⟩)
    · exact ⟨log, [], rfl, issued, kept⟩
    · exact ⟨before, after ++ [event], by simp, issued, kept⟩

/-- What has been withdrawn is out of reach for good. -/
theorem Lawful.out_of_reach (lawful : Lawful log)
    (withdrawn : Withdrawn log place key) :
    .issued place key ∈ log ∧ .taken place key ∉ log ∧
      ¬ Outstanding log place key := by
  induction lawful with
  | nil =>
      obtain ⟨before, after, shape, _⟩ := withdrawn
      simp at shape
  | issued lawful latest fresh ih =>
      rcases withdrawn_concat.mp withdrawn with ⟨same, _⟩ | earlier
      · cases same
      · obtain ⟨issued, untaken, gone⟩ := ih earlier
        refine ⟨List.mem_append_left _ issued, by simpa using untaken,
          not_outstanding_concat (fun same => ?_) gone⟩
        cases same
        exact fresh (mem_issuedKeys.mpr ⟨_, issued⟩)
  | withdrawn lawful latest held ih =>
      rcases withdrawn_concat.mp withdrawn with ⟨same, issued, untaken⟩ | earlier
      · refine ⟨List.mem_append_left _ issued, by simpa using untaken, ?_⟩
        rw [outstanding_concat]
        rintro (other | ⟨_, stays, _⟩)
        · cases other
        · exact stays same
      · obtain ⟨issued, untaken, gone⟩ := ih earlier
        exact ⟨List.mem_append_left _ issued, by simpa using untaken,
          not_outstanding_concat (by simp) gone⟩
  | taken lawful outstanding ih =>
      rcases withdrawn_concat.mp withdrawn with ⟨same, _⟩ | earlier
      · cases same
      · obtain ⟨issued, untaken, gone⟩ := ih earlier
        refine ⟨List.mem_append_left _ issued, fun taken => ?_,
          not_outstanding_concat (by simp) gone⟩
        rcases List.mem_append.mp taken with before | now
        · exact untaken before
        · cases List.mem_singleton.mp now
          exact gone outstanding
  | spent lawful held unspent ih =>
      rcases withdrawn_concat.mp withdrawn with ⟨same, _⟩ | earlier
      · cases same
      · obtain ⟨issued, untaken, gone⟩ := ih earlier
        exact ⟨List.mem_append_left _ issued, by simpa using untaken,
          not_outstanding_concat (by simp) gone⟩

theorem outstanding_taken_all {keys : List Key} {other : Place} :
    Outstanding (log ++ keys.map (Event.taken place)) other key ↔
      Outstanding log other key ∧ ¬ (other = place ∧ key ∈ keys) := by
  induction keys generalizing log with
  | nil => simp
  | cons held rest ih =>
      rw [List.map_cons, List.append_cons, ih, outstanding_concat]
      constructor
      · rintro ⟨same | ⟨outstanding, _, remains⟩, absent⟩
        · cases same
        · refine ⟨outstanding, fun listed => ?_⟩
          obtain ⟨rfl, member⟩ := listed
          rcases List.mem_cons.mp member with rfl | later
          · exact remains rfl
          · exact absent ⟨rfl, later⟩
      · rintro ⟨outstanding, absent⟩
        refine ⟨.inr ⟨outstanding, by simp, fun same => ?_⟩, fun listed => ?_⟩
        · cases same
          exact absent ⟨rfl, List.mem_cons_self⟩
        · exact absent ⟨listed.1, List.mem_cons_of_mem _ listed.2⟩

theorem Lawful.taken_all {keys : List Key} (lawful : Lawful log)
    (outstanding : ∀ key ∈ keys, Outstanding log place key)
    (distinct : keys.Nodup) : Lawful (log ++ keys.map (Event.taken place)) := by
  induction keys generalizing log with
  | nil => simpa using lawful
  | cons held rest ih =>
      obtain ⟨absent, others⟩ := List.nodup_cons.mp distinct
      rw [List.map_cons, List.append_cons]
      refine ih (lawful.taken (outstanding held List.mem_cons_self))
        (fun key listed => ?_) others
      rw [outstanding_concat]
      refine .inr ⟨outstanding key (List.mem_cons_of_mem _ listed), by simp,
        fun same => ?_⟩
      cases same
      exact absent listed

theorem Lawful.shorten {log : List (Event Place Key)} (lawful : Lawful log)
    {shorter : List (Event Place Key)} (before : shorter <+: log) :
    Lawful shorter := by
  induction lawful with
  | nil =>
      rw [List.prefix_nil.mp before]
      exact .nil
  | issued lawful place fresh ih =>
      rcases List.prefix_concat_iff.mp before with rfl | earlier
      · exact .issued lawful place fresh
      · exact ih earlier
  | withdrawn lawful place key ih =>
      rcases List.prefix_concat_iff.mp before with rfl | earlier
      · exact .withdrawn lawful place key
      · exact ih earlier
  | taken lawful outstanding ih =>
      rcases List.prefix_concat_iff.mp before with rfl | earlier
      · exact .taken lawful outstanding
      · exact ih earlier
  | spent lawful held unspent ih =>
      rcases List.prefix_concat_iff.mp before with rfl | earlier
      · exact .spent lawful held unspent
      · exact ih earlier

theorem Lawful.proper (lawful : Lawful log) : Proper log where
  fresh := lawful.nodup_issuedKeys
  once := lawful.nodup_spentKeys
  origin := by
    rintro before after place key rfl
    have upTo : Lawful (before ++ [.spent place key]) :=
      lawful.shorten ⟨after, by simp⟩
    have earlier : Lawful before := upTo.shorten (List.prefix_append _ _)
    have taken : .taken place key ∈ before := by
      have listed : .taken place key ∈ before ++ [.spent place key] :=
        upTo.taken_of_spent (by simp)
      simpa using listed
    exact earlier.taken_origin taken
  withdrawn := by
    intro place key withdrawn
    obtain ⟨_, untaken, _⟩ := lawful.out_of_reach withdrawn
    exact ⟨untaken, fun spent => untaken (lawful.taken_of_spent spent)⟩

end Consequences

end ZooKeeperServer.Transition.OneShot
