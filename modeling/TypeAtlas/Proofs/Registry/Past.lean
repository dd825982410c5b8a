import TypeAtlas.Proofs.Registry.Contract

/-!
# What a thread has done

The past of a thread tells which assemblies it has begun and not ended, and
which names it has asked for.  A stretch of deeds is balanced when all that
begins in it ends in it and is counted as it should be.
-/

namespace TypeAtlas

namespace Deed

def enters (name : TypeName) : Deed → Bool
  | ⟨.enter asked, _⟩ => asked == name
  | _ => false

def makes (name : TypeName) : Deed → Bool
  | ⟨.enter asked, .made _⟩ => asked == name
  | _ => false

def isMaking : Deed → Bool
  | ⟨.enter _, .made _⟩ => true
  | _ => false

def builds (name : TypeName) : Deed → Bool
  | ⟨.mark (.building built), _⟩ => built == name
  | _ => false

def publishes (name : TypeName) : Deed → Bool
  | ⟨.publish published _ _, _⟩ => published == name
  | _ => false

def isPublishing : Deed → Bool
  | ⟨.publish _ _ _, _⟩ => true
  | _ => false

def isFailing : Deed → Bool
  | ⟨.publish _ _ body, _⟩ => body.failure?.isSome
  | _ => false

def fails (name : TypeName) : Deed → Bool
  | ⟨.publish published _ body, _⟩ =>
    published == name && body.failure?.isSome
  | _ => false

def countsBuild : Deed → Bool
  | ⟨.recordBuild _, _⟩ => true
  | _ => false

def countsFailure : Deed → Bool
  | ⟨.recordBuild failed, _⟩ => failed
  | _ => false

/-- Whether a top-level lookup was counted, as a hit or as a miss. -/
def countsLookup : Deed → Bool
  | ⟨.recordHit, _⟩ | ⟨.recordMiss, _⟩ => true
  | _ => false

/-- Whether a lookup was counted as one that made an entry. -/
def countsMiss : Deed → Bool
  | ⟨.recordMiss, _⟩ => true
  | _ => false

/-- Whether a top-level lookup ended, and not for being reentrant. -/
def endsLookup : Deed → Bool
  | ⟨.mark (.answered .topLevel _ outcome), _⟩ =>
    !(outcome matches .error (.error (.reentrantLookup _)))
  | _ => false

/-- Whether nothing that is counted here was done. -/
def isPlain : Deed → Bool
  | ⟨.enter _, .present _ _ _⟩ | ⟨.await _, _⟩ | ⟨.takeNumber, _⟩
  | ⟨.readTarget _, _⟩ | ⟨.keepTarget _ _, _⟩ | ⟨.look _, _⟩
  | ⟨.report _, _⟩ | ⟨.mark (.asked _ _), _⟩
  | ⟨.mark (.answered .nested _ _), _⟩ => true
  | _ => false

end Deed

namespace Past

/-- The assemblies begun and not ended, the latest first.  An assembly that
begins inside another one ends before it. -/
def unfinished : Past → List (TypeName × Nat)
  | [] => []
  | ⟨.enter name, .made identity⟩ :: past => (name, identity) :: unfinished past
  | ⟨.publish _ _ _, _⟩ :: past => (unfinished past).tail
  | _ :: past => unfinished past

def hasEntered (past : Past) (name : TypeName) : Bool :=
  past.any (·.enters name)

def hasFailed (past : Past) (name : TypeName) : Bool :=
  past.any (·.fails name)

def failures (past : Past) : Nat :=
  past.countP Deed.isFailing

/-- How many of the names that assemblies ask for were not asked for yet. -/
def remaining (sources : Sources) (past : Past) : Nat :=
  (sources.mentioned.filter fun name => !hasEntered past name).length

theorem hasEntered_append (deeds past : Past) (name : TypeName) :
    hasEntered (deeds ++ past) name =
      (hasEntered deeds name || hasEntered past name) :=
  List.any_append

theorem hasEntered_append_right {past : Past} {name : TypeName}
    (entered : hasEntered past name = true) (deeds : List Deed) :
    hasEntered (deeds ++ past) name = true := by
  rw [hasEntered_append, entered, Bool.or_true]

@[simp]
theorem hasEntered_enter (past : Past) (name other : TypeName) (found : Found) :
    hasEntered (⟨.enter name, found⟩ :: past) other =
      (name == other || hasEntered past other) :=
  rfl

theorem hasEntered_of_suffix {past older : Past} {name : TypeName}
    (suffix : older <:+ past) (entered : hasEntered older name = true) :
    hasEntered past name = true := by
  obtain ⟨deeds, rfl⟩ := suffix
  exact hasEntered_append_right entered deeds

theorem hasFailed_of_suffix {past older : Past} {name : TypeName}
    (suffix : older <:+ past) (failed : hasFailed older name = true) :
    hasFailed past name = true := by
  obtain ⟨deeds, rfl⟩ := suffix
  unfold hasFailed at failed ⊢
  rw [List.any_append, failed, Bool.or_true]

theorem hasFailed_iff {past : Past} {name : TypeName} :
    hasFailed past name = true ↔ ∃ identity body,
      (⟨.publish name identity body, ()⟩ : Deed) ∈ past ∧
        body.failure? ≠ none := by
  unfold hasFailed
  rw [List.any_eq_true]
  constructor
  · rintro ⟨⟨action, answer⟩, member, fails⟩
    cases action with
    | publish published identity body =>
      obtain ⟨same, failed⟩ := Bool.and_eq_true_iff.1 fails
      rw [← beq_iff_eq.1 same]
      exact ⟨identity, body, member, Option.isSome_iff_ne_none.1 failed⟩
    | _ => cases fails
  · rintro ⟨identity, body, member, failed⟩
    refine ⟨_, member, Bool.and_eq_true_iff.2 ⟨beq_self_eq_true name, ?_⟩⟩
    exact Option.isSome_iff_ne_none.2 failed

theorem made_of_mem_unfinished {past : Past} {name : TypeName}
    {identity : Nat} (member : (name, identity) ∈ unfinished past) :
    (⟨.enter name, .made identity⟩ : Deed) ∈ past := by
  induction past with
  | nil => cases member
  | cons deed past ih =>
    unfold unfinished at member
    split at member
    · cases member
    next heading =>
      cases heading
      rcases List.mem_cons.1 member with same | member
      · cases same
        exact List.mem_cons_self
      · exact List.mem_cons_of_mem _ (ih member)
    next heading =>
      cases heading
      exact List.mem_cons_of_mem _ (ih (List.mem_of_mem_tail member))
    next heading =>
      cases heading
      exact List.mem_cons_of_mem _ (ih member)

theorem unfinished_cons_of_quiet {deed : Deed} (making : ¬ deed.isMaking)
    (publishing : ¬ deed.isPublishing) (past : Past) :
    unfinished (deed :: past) = unfinished past := by
  obtain ⟨action, answer⟩ := deed
  cases action with
  | enter name =>
    cases answer with
    | made identity => exact (making rfl).elim
    | present identity builder isPublished => rfl
  | publish name identity body => exact (publishing rfl).elim
  | _ => rfl

theorem hasEntered_of_mem {past : Past} {name : TypeName} {found : Found}
    (member : (⟨.enter name, found⟩ : Deed) ∈ past) :
    hasEntered past name = true :=
  List.any_eq_true.2 ⟨_, member, by simp [Deed.enters]⟩

/-- Whether no name but one was asked for since some time. -/
def EntersOnly (name : TypeName) (past later : Past) : Prop :=
  ∀ other, hasEntered later other = true →
    other = name ∨ hasEntered past other = true

theorem EntersOnly.refl (name : TypeName) (past : Past) :
    EntersOnly name past past :=
  fun _ entered => .inr entered

theorem EntersOnly.enter {name : TypeName} {past later : Past}
    (only : EntersOnly name past later) (found : Found) :
    EntersOnly name past (⟨.enter name, found⟩ :: later) := by
  intro other entered
  rw [hasEntered_enter, Bool.or_eq_true, beq_iff_eq] at entered
  rcases entered with same | entered
  · exact .inl same.symm
  · exact only other entered

theorem EntersOnly.trans {name : TypeName} {past later latest : Past}
    (first : EntersOnly name past later)
    (second : EntersOnly name later latest) : EntersOnly name past latest :=
  fun other entered => (second other entered).elim .inl (first other)

theorem remaining_append_le (sources : Sources) (deeds past : Past) :
    remaining sources (deeds ++ past) ≤ remaining sources past := by
  simp only [remaining, ← List.countP_eq_length_filter]
  refine List.countP_mono_left fun name _ fresh => ?_
  rw [hasEntered_append] at fresh
  simp_all

theorem remaining_le (sources : Sources) (past : Past) :
    remaining sources past ≤ sources.mentioned.length :=
  List.length_filter_le _ _

/-- Making the entry of a name that is mentioned leaves fewer such names. -/
theorem remaining_enter_lt {sources : Sources} {past : Past} {name : TypeName}
    (mentioned : name ∈ sources.mentioned)
    (fresh : hasEntered past name = false) (found : Found) :
    remaining sources (⟨.enter name, found⟩ :: past) <
      remaining sources past := by
  have split : (sources.mentioned.filter fun other =>
        !hasEntered (⟨.enter name, found⟩ :: past) other) =
      (sources.mentioned.filter fun other => !hasEntered past other).filter
        fun other => !(name == other) := by
    rw [List.filter_filter]
    exact List.filter_congr fun other _ => by simp
  unfold remaining
  rw [split]
  refine List.length_filter_lt_length_iff_exists.2
    ⟨name, List.mem_filter.2 ⟨mentioned, ?_⟩, by simp⟩
  rw [fresh]
  rfl

end Past

/-- A stretch of deeds in which all that begins ends, and is counted. -/
structure Balanced (deeds : List Deed) : Prop where
  begun : ∀ name, deeds.countP (·.builds name) = deeds.countP (·.makes name)
  published : ∀ name,
    deeds.countP (·.publishes name) = deeds.countP (·.makes name)
  ended : deeds.countP Deed.isPublishing = deeds.countP Deed.isMaking
  counted : deeds.countP Deed.countsBuild = deeds.countP Deed.isMaking
  failed : deeds.countP Deed.countsFailure = deeds.countP Deed.isFailing
  looked : deeds.countP Deed.countsLookup = deeds.countP Deed.endsLookup
  missed : deeds.countP Deed.countsMiss ≤ deeds.countP Deed.countsBuild

namespace Balanced

theorem nil : Balanced [] := by
  constructor <;> simp

theorem append {first second : List Deed} (firstBalanced : Balanced first)
    (secondBalanced : Balanced second) : Balanced (first ++ second) := by
  constructor <;> simp only [List.countP_append]
  · exact fun name => by rw [firstBalanced.begun, secondBalanced.begun]
  · exact fun name => by rw [firstBalanced.published, secondBalanced.published]
  · rw [firstBalanced.ended, secondBalanced.ended]
  · rw [firstBalanced.counted, secondBalanced.counted]
  · rw [firstBalanced.failed, secondBalanced.failed]
  · rw [firstBalanced.looked, secondBalanced.looked]
  · exact Nat.add_le_add firstBalanced.missed secondBalanced.missed

theorem of_isPlain {deed : Deed} (plain : deed.isPlain = true) :
    Balanced [deed] := by
  obtain ⟨action, answer⟩ := deed
  cases action with
  | publish name identity body => cases plain
  | recordHit => cases plain
  | recordMiss => cases plain
  | recordBuild failed => cases plain
  | enter name =>
    cases answer with
    | made identity => cases plain
    | present identity builder isPublished =>
      exact ⟨fun _ => rfl, fun _ => rfl, rfl, rfl, rfl, rfl, Nat.le_refl 0⟩
  | mark mark =>
    rcases mark with _ | ⟨kind, _, _⟩ | _
    · exact ⟨fun _ => rfl, fun _ => rfl, rfl, rfl, rfl, rfl, Nat.le_refl 0⟩
    · cases kind with
      | topLevel => cases plain
      | nested =>
        exact ⟨fun _ => rfl, fun _ => rfl, rfl, rfl, rfl, rfl, Nat.le_refl 0⟩
    · cases plain
  | await | takeNumber | readTarget | keepTarget | look | report =>
    exact ⟨fun _ => rfl, fun _ => rfl, rfl, rfl, rfl, rfl, Nat.le_refl 0⟩

theorem reentrant (name other : TypeName) :
    Balanced [⟨.mark (.answered .topLevel name
      (.error (.error (.reentrantLookup other)))), ()⟩] :=
  ⟨fun _ => rfl, fun _ => rfl, rfl, rfl, rfl, rfl, Nat.le_refl 0⟩

theorem hit (name : TypeName) (descriptor : Descriptor) :
    Balanced [⟨.mark (.answered .topLevel name (.ok descriptor)), ()⟩,
      ⟨.recordHit, ()⟩] :=
  ⟨fun _ => rfl, fun _ => rfl, rfl, rfl, rfl, rfl, Nat.le_refl 0⟩

theorem build {deeds : List Deed} (balanced : Balanced deeds)
    (name : TypeName) (identity : Nat) (body : Body) :
    Balanced (⟨.recordBuild body.failure?.isSome, ()⟩ ::
      ⟨.publish name identity body, ()⟩ ::
        (deeds ++
          [⟨.mark (.building name), ()⟩, ⟨.enter name, .made identity⟩])) := by
  have split (holds : Deed → Bool) :
      (⟨.recordBuild body.failure?.isSome, ()⟩ ::
        ⟨.publish name identity body, ()⟩ ::
          (deeds ++ [⟨.mark (.building name), ()⟩,
            ⟨.enter name, .made identity⟩])).countP holds =
        deeds.countP holds +
          ([⟨.recordBuild body.failure?.isSome, ()⟩,
            ⟨.publish name identity body, ()⟩, ⟨.mark (.building name), ()⟩,
            ⟨.enter name, .made identity⟩] : List Deed).countP holds := by
    simp only [List.countP_cons, List.countP_append, List.countP_nil]
    omega
  refine ⟨fun other => ?_, fun other => ?_, ?_, ?_, ?_, ?_, ?_⟩
  · rw [split, split, balanced.begun]
    simp [List.countP_cons, Deed.builds, Deed.makes]
  · rw [split, split, balanced.published]
    simp [List.countP_cons, Deed.publishes, Deed.makes]
  · rw [split, split, balanced.ended]
    rfl
  · rw [split, split, balanced.counted]
    rfl
  · rw [split, split, balanced.failed]
    cases failure : body.failure? with
    | none => simp [Deed.countsFailure, Deed.isFailing, failure]
    | some reason =>
      simp [List.countP_cons, Deed.countsFailure, Deed.isFailing, failure]
  · rw [split, split, balanced.looked]
    rfl
  · rw [split, split]
    exact Nat.add_le_add balanced.missed (Nat.zero_le 1)

theorem miss {deeds : List Deed} {name : TypeName} {identity : Nat}
    {outcome : Except Stop Descriptor}
    (balanced : Balanced (deeds ++ [⟨.enter name, .made identity⟩]))
    (missed : deeds.countP Deed.countsMiss < deeds.countP Deed.countsBuild)
    (served : Deed.endsLookup
      ⟨.mark (.answered .topLevel name outcome), ()⟩ = true) :
    Balanced (⟨.mark (.answered .topLevel name outcome), ()⟩ ::
      (deeds ++ [⟨.recordMiss, ()⟩, ⟨.enter name, .made identity⟩])) := by
  have looked : deeds.countP Deed.countsLookup =
      deeds.countP Deed.endsLookup := by
    simpa [Deed.countsLookup, Deed.endsLookup] using balanced.looked
  refine ⟨fun other => ?_, fun other => ?_, ?_, ?_, ?_, ?_, ?_⟩
  · simpa [Deed.builds, Deed.makes] using balanced.begun other
  · simpa [Deed.publishes, Deed.makes] using balanced.published other
  · simpa [Deed.isPublishing, Deed.isMaking] using balanced.ended
  · simpa [Deed.countsBuild, Deed.isMaking] using balanced.counted
  · simpa [Deed.countsFailure, Deed.isFailing] using balanced.failed
  · rw [List.countP_cons_of_neg (by simp [Deed.countsLookup]),
      List.countP_cons_of_pos served, List.countP_append, List.countP_append]
    change _ + 1 = _ + 0 + 1
    rw [looked]
  · rw [List.countP_cons_of_neg (by simp [Deed.countsMiss]),
      List.countP_cons_of_neg (by simp [Deed.countsBuild]),
      List.countP_append, List.countP_append]
    exact missed

end Balanced

/-- A past that went on by balanced deeds, with the same assemblies begun. -/
def Extends (past later : Past) : Prop :=
  ∃ deeds, later = deeds ++ past ∧ Balanced deeds ∧
    Past.unfinished later = Past.unfinished past

namespace Extends

theorem refl (past : Past) : Extends past past :=
  ⟨[], rfl, Balanced.nil, rfl⟩

theorem trans {past later latest : Past} (first : Extends past later)
    (second : Extends later latest) : Extends past latest := by
  obtain ⟨deeds, rfl, balanced, same⟩ := first
  obtain ⟨further, rfl, balancedFurther, sameFurther⟩ := second
  exact ⟨further ++ deeds, (List.append_assoc _ _ _).symm,
    balancedFurther.append balanced, sameFurther.trans same⟩

theorem of_isPlain (deed : Deed) (plain : deed.isPlain = true)
    (past : Past) : Extends past (deed :: past) := by
  refine ⟨[deed], rfl, Balanced.of_isPlain plain, ?_⟩
  obtain ⟨action, answer⟩ := deed
  cases action with
  | publish name identity body => cases plain
  | enter name =>
    cases answer with
    | made identity => cases plain
    | present identity builder isPublished => rfl
  | _ => rfl

theorem reentrant (name other : TypeName) (past : Past) :
    Extends past (⟨.mark (.answered .topLevel name
      (.error (.error (.reentrantLookup other)))), ()⟩ :: past) :=
  ⟨[⟨.mark (.answered .topLevel name
    (.error (.error (.reentrantLookup other)))), ()⟩], rfl,
    Balanced.reentrant name other, rfl⟩

theorem hit (name : TypeName) (descriptor : Descriptor) (past : Past) :
    Extends past (⟨.mark (.answered .topLevel name (.ok descriptor)), ()⟩ ::
      ⟨.recordHit, ()⟩ :: past) :=
  ⟨[⟨.mark (.answered .topLevel name (.ok descriptor)), ()⟩,
    ⟨.recordHit, ()⟩], rfl, Balanced.hit name descriptor, rfl⟩

theorem hasEntered {past later : Past} {name : TypeName}
    (grows : Extends past later)
    (entered : Past.hasEntered past name = true) :
    Past.hasEntered later name = true := by
  obtain ⟨deeds, rfl, _, _⟩ := grows
  exact Past.hasEntered_append_right entered deeds

theorem remaining_le {past later : Past} (grows : Extends past later)
    (sources : Sources) :
    Past.remaining sources later ≤ Past.remaining sources past := by
  obtain ⟨deeds, rfl, _, _⟩ := grows
  exact Past.remaining_append_le sources deeds past

end Extends

end TypeAtlas
