import Mathlib.Data.List.Forall2

/-!
# Traversals that can fail

A computation of two stages succeeds exactly when both of its stages do.  So a
traversal of a list succeeds exactly when the function succeeds at every
member, and then the results stand in the order of the members.
-/

namespace CaretReport

section Related

variable {Source Target : Type} {related : Source → Target → Prop}
variable {sources : List Source} {targets : List Target}

theorem exists_target_of_forall₂ (fits : List.Forall₂ related sources targets)
    {source : Source} (member : source ∈ sources) :
    ∃ target ∈ targets, related source target := by
  induction fits with
  | nil => cases member
  | cons head _ ih =>
      rcases List.mem_cons.mp member with rfl | later
      · exact ⟨_, List.mem_cons_self, head⟩
      · obtain ⟨target, found, relates⟩ := ih later
        exact ⟨target, List.mem_cons_of_mem _ found, relates⟩

theorem exists_source_of_forall₂ (fits : List.Forall₂ related sources targets)
    {target : Target} (member : target ∈ targets) :
    ∃ source ∈ sources, related source target := by
  induction fits with
  | nil => cases member
  | cons head _ ih =>
      rcases List.mem_cons.mp member with rfl | later
      · exact ⟨_, List.mem_cons_self, head⟩
      · obtain ⟨source, found, relates⟩ := ih later
        exact ⟨source, List.mem_cons_of_mem _ found, relates⟩

/-- An order of the sources that related targets inherit orders the targets. -/
theorem pairwise_of_forall₂ {before : Source → Source → Prop}
    {after : Target → Target → Prop}
    (fits : List.Forall₂ related sources targets)
    (inherits : ∀ source other target next, related source target →
      related other next → before source other → after target next)
    (sorted : sources.Pairwise before) : targets.Pairwise after := by
  induction fits with
  | nil => exact List.Pairwise.nil
  | @cons source target rest others head fits ih =>
      obtain ⟨first, rest_sorted⟩ := List.pairwise_cons.mp sorted
      refine List.pairwise_cons.mpr ⟨?_, ih rest_sorted⟩
      intro next member
      obtain ⟨other, found, relates⟩ := exists_source_of_forall₂ fits member
      exact inherits source other target next head relates (first other found)

/-- Lists read alike if their members do. -/
theorem map_eq_map_of_forall₂ {Value : Type} {reading : Source → Value}
    {rereading : Target → Value}
    (agree : List.Forall₂ (fun source target =>
      reading source = rereading target) sources targets) :
    sources.map reading = targets.map rereading := by
  rwa [← List.forall₂_eq_eq_eq, List.forall₂_map_left_iff,
    List.forall₂_map_right_iff]

/-- Two relations between three lists compose member by member. -/
theorem forall₂_compose {Result : Type} {further : Target → Result → Prop}
    {composed : Source → Result → Prop} {results : List Result}
    (fits : List.Forall₂ related sources targets)
    (onward : List.Forall₂ further targets results)
    (composes : ∀ source target result, related source target →
      further target result → composed source result) :
    List.Forall₂ composed sources results := by
  induction fits generalizing results with
  | nil =>
      cases onward
      exact List.Forall₂.nil
  | @cons source target _ _ head _ ih =>
      obtain ⟨result, others, next, later, rfl⟩ :=
        List.forall₂_cons_left_iff.mp onward
      exact List.Forall₂.cons (composes source target result head next) (ih later)

/-- Targets and results that come from the same sources are related if every
source relates its own. -/
theorem exists_forall₂_square {Other Result : Type}
    {beside : Source → Other → Prop} {further : Other → Result → Prop}
    {composed : Target → Result → Prop} {others : List Other}
    (fits : List.Forall₂ related sources targets)
    (besides : List.Forall₂ beside sources others)
    (completes : ∀ source target other, source ∈ sources →
      related source target → beside source other →
        ∃ result, further other result ∧ composed target result) :
    ∃ results, List.Forall₂ further others results ∧
      List.Forall₂ composed targets results := by
  induction fits generalizing others with
  | nil =>
      cases besides
      exact ⟨[], .nil, .nil⟩
  | @cons source target rest _ head _ ih =>
      obtain ⟨other, later, here, there, rfl⟩ :=
        List.forall₂_cons_left_iff.mp besides
      obtain ⟨result, onward, completed⟩ :=
        completes source target other List.mem_cons_self head here
      obtain ⟨results, rest_onward, rest_completed⟩ := ih there
        fun source target other member =>
          completes source target other (List.mem_cons_of_mem _ member)
      exact ⟨result :: results, .cons onward rest_onward,
        .cons completed rest_completed⟩

theorem exists_append_of_forall₂ {front back : List Source}
    (fits : List.Forall₂ related (front ++ back) targets) :
    ∃ before after, targets = before ++ after ∧
      List.Forall₂ related front before ∧ List.Forall₂ related back after := by
  have former := List.forall₂_take front.length fits
  have latter := List.forall₂_drop front.length fits
  rw [List.take_left] at former
  rw [List.drop_left] at latter
  exact ⟨_, _, (List.take_append_drop front.length targets).symm, former, latter⟩

/-- What is related to a list in parts comes in the same parts. -/
theorem exists_parts_of_forall₂_flatten {parts : List (List Source)}
    (fits : List.Forall₂ related parts.flatten targets) :
    ∃ targetParts : List (List Target), targets = targetParts.flatten ∧
      List.Forall₂ (List.Forall₂ related) parts targetParts := by
  induction parts generalizing targets with
  | nil => exact ⟨[], List.forall₂_nil_left_iff.mp fits, List.Forall₂.nil⟩
  | cons part parts ih =>
      obtain ⟨front, back, rfl, head, tail⟩ := exists_append_of_forall₂ fits
      obtain ⟨targetParts, rfl, rest⟩ := ih tail
      exact ⟨front :: targetParts, rfl, List.Forall₂.cons head rest⟩

end Related

section Failing

variable {Source Target Failure Cause : Type}

theorem exists_eq_ok_of_map {Value : Type} {result : Except Failure Target}
    {reading : Target → Value} {value : Value}
    (read : result.toOption.map reading = some value) :
    ∃ target, result = .ok target ∧ reading target = value := by
  cases result with
  | error cause => cases read
  | ok target => exact ⟨target, rfl, Option.some.inj read⟩

/-- Two stages succeed together when the first succeeds and the second does on
its result. -/
theorem bind_eq_ok_iff {first : Except Failure Source}
    {second : Source → Except Failure Target} {target : Target} :
    first >>= second = .ok target ↔
      ∃ source, first = .ok source ∧ second source = .ok target := by
  cases first with
  | error cause => simp [bind, Except.bind]
  | ok source => simp [bind, Except.bind]

/-- Two stages fail when the first does, or the second on its result. -/
theorem bind_eq_error_iff {first : Except Failure Source}
    {second : Source → Except Failure Target} {cause : Failure} :
    first >>= second = .error cause ↔
      first = .error cause ∨
        ∃ source, first = .ok source ∧ second source = .error cause := by
  cases first with
  | error other => simp [bind, Except.bind]
  | ok source => simp [bind, Except.bind]

@[simp]
theorem mapError_eq_ok_iff {restate : Failure → Cause}
    {result : Except Failure Target} {target : Target} :
    result.mapError restate = .ok target ↔ result = .ok target := by
  cases result <;> simp [Except.mapError]

/-- A traversal succeeds with the results of its members, in order. -/
theorem mapM_eq_ok_iff (function : Source → Except Failure Target)
    (sources : List Source) (targets : List Target) :
    sources.mapM function = .ok targets ↔
      List.Forall₂ (fun source target => function source = .ok target)
        sources targets := by
  induction sources generalizing targets with
  | nil =>
      rw [List.mapM_nil, List.forall₂_nil_left_iff]
      simp [pure, Except.pure, eq_comm]
  | cons source rest ih =>
      rw [List.mapM_cons, List.forall₂_cons_left_iff, bind_eq_ok_iff]
      constructor
      · rintro ⟨target, head, tail⟩
        obtain ⟨others, fits, same⟩ := bind_eq_ok_iff.mp tail
        exact ⟨target, others, head, (ih others).mp fits,
          (Except.ok.inj same).symm⟩
      · rintro ⟨target, others, head, fits, rfl⟩
        exact ⟨target, head,
          bind_eq_ok_iff.mpr ⟨others, (ih others).mpr fits, rfl⟩⟩

theorem exists_target_of_mapM {function : Source → Except Failure Target}
    {sources : List Source} {targets : List Target}
    (success : sources.mapM function = .ok targets) {source : Source}
    (member : source ∈ sources) :
    ∃ target ∈ targets, function source = .ok target :=
  exists_target_of_forall₂ ((mapM_eq_ok_iff _ _ _).mp success) member

theorem exists_source_of_mapM {function : Source → Except Failure Target}
    {sources : List Source} {targets : List Target}
    (success : sources.mapM function = .ok targets) {target : Target}
    (member : target ∈ targets) :
    ∃ source ∈ sources, function source = .ok target :=
  exists_source_of_forall₂ ((mapM_eq_ok_iff _ _ _).mp success) member

/-- A traversal fails only if the function fails at some member. -/
theorem exists_mem_of_mapM_error {function : Source → Except Failure Target}
    {sources : List Source} {cause : Failure}
    (failed : sources.mapM function = .error cause) :
    ∃ source ∈ sources, function source = .error cause := by
  induction sources with
  | nil => cases failed
  | cons source rest ih =>
      rw [List.mapM_cons, bind_eq_error_iff] at failed
      rcases failed with head | ⟨target, _, failed⟩
      · exact ⟨source, List.mem_cons_self, head⟩
      · rcases bind_eq_error_iff.mp failed with tail | ⟨targets, _, kept⟩
        · obtain ⟨later, found, fails⟩ := ih tail
          exact ⟨later, List.mem_cons_of_mem source found, fails⟩
        · cases kept

theorem exists_mem_of_forM_error {check : Source → Except Failure Unit}
    {sources : List Source} {cause : Failure}
    (failed : sources.forM check = .error cause) :
    ∃ source ∈ sources, check source = .error cause := by
  induction sources with
  | nil => cases failed
  | cons source rest ih =>
      rcases bind_eq_error_iff.mp failed with head | ⟨_, _, tail⟩
      · exact ⟨source, List.mem_cons_self, head⟩
      · obtain ⟨later, found, fails⟩ := ih tail
        exact ⟨later, List.mem_cons_of_mem source found, fails⟩

/-- A check of several sources succeeds if it does on each of them. -/
theorem forM_eq_ok_iff {check : Source → Except Failure Unit}
    {sources : List Source} :
    sources.forM check = .ok () ↔ ∀ source ∈ sources, check source = .ok () := by
  induction sources with
  | nil => simp [List.forM_eq_forM, pure, Except.pure]
  | cons source rest ih =>
      rw [List.forM_eq_forM] at ih
      rw [List.forM_eq_forM, List.forM_cons, List.forall_mem_cons, ← ih,
        bind_eq_ok_iff]
      exact ⟨fun ⟨_, here, later⟩ => ⟨here, later⟩,
        fun ⟨here, later⟩ => ⟨(), here, later⟩⟩

/-- Checks that agree member by member agree on the whole. -/
theorem forM_eq_of_forall₂ {check : Source → Except Failure Unit}
    {recheck : Target → Except Failure Unit} {sources : List Source}
    {targets : List Target}
    (agree : List.Forall₂ (fun source target => check source = recheck target)
      sources targets) : sources.forM check = targets.forM recheck := by
  induction agree with
  | nil => rfl
  | cons here _ ih =>
      rw [List.forM_eq_forM, List.forM_eq_forM] at ih ⊢
      rw [List.forM_cons, List.forM_cons, here, ih]

/-- Traversals that agree member by member agree on the whole. -/
theorem mapM_eq_of_forall₂ {Value : Type}
    {function : Source → Except Failure Value}
    {other : Target → Except Failure Value} {sources : List Source}
    {targets : List Target}
    (agree : List.Forall₂ (fun source target => function source = other target)
      sources targets) : sources.mapM function = targets.mapM other := by
  induction agree with
  | nil => rfl
  | cons here _ ih => rw [List.mapM_cons, List.mapM_cons, here, ih]

theorem exists_mapM_eq_ok {function : Source → Except Failure Target}
    {sources : List Source}
    (succeeds : ∀ source ∈ sources, ∃ target, function source = .ok target) :
    ∃ targets, sources.mapM function = .ok targets := by
  induction sources with
  | nil => exact ⟨[], rfl⟩
  | cons source rest ih =>
      obtain ⟨target, head⟩ := succeeds source List.mem_cons_self
      obtain ⟨targets, tail⟩ :=
        ih fun other member => succeeds other (List.mem_cons_of_mem _ member)
      refine ⟨target :: targets, ?_⟩
      rw [List.mapM_cons, head, tail]
      rfl

end Failing

end CaretReport
