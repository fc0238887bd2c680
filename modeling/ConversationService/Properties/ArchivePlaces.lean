import ConversationService.Library.Placements
import ConversationService.Model.ExportArchive

/-!
# Where conversations are placed

The recursion of `plan_paths` takes the conversations in the order of a walk down from the
roots and then from all conversations, and it gives each one a path when it takes it.
-/

namespace ConversationService
namespace ExportArchive

open Python ParentLinks

namespace Plan

def keys (plan : Plan) : List UUID := plan.dirs.map Prod.fst

@[simp] theorem keys_empty : Plan.empty.keys = [] := rfl

@[simp] theorem keys_add (plan : Plan) (id : UUID) (path : Text) :
    (plan.add id path).keys = id :: plan.keys := rfl

theorem has_iff (plan : Plan) (id : UUID) : plan.has id = true <-> id ∈ plan.keys := by
  unfold has keys
  rw [List.any_eq_true, List.mem_map]
  simp only [decide_eq_true_eq]

def dir (plan : Plan) (id : UUID) : Text := (plan.dirs.lookup id).getD []

theorem dir_add_self (plan : Plan) (id : UUID) (path : Text) :
    (plan.add id path).dir id = path := by
  unfold dir add
  rw [List.lookup_cons_self]
  rfl

theorem dir_add_of_ne {plan : Plan} {id p : UUID} (path : Text) (h : p ≠ id) :
    (plan.add id path).dir p = plan.dir p := by
  unfold dir add
  rw [List.lookup_cons, beq_false_of_ne h]

end Plan

section Walk

variable (nfkd : Text -> Text) (conversations : List ExportConversation)

def nodes : List UUID := conversations.map (fun ec => ec.conversation.conversationId)

def childrenOf (id : UUID) : List UUID :=
  ((byId conversations id).map ExportConversation.children).getD []

theorem byId_isSome (id : UUID) :
    (byId conversations id).isSome = true <-> id ∈ nodes conversations := by
  unfold byId nodes
  rw [List.find?_isSome, List.mem_map]
  simp only [List.mem_reverse, decide_eq_true_eq]

/-- The name that a directory has if nothing else has it. -/
def dirName (id : UUID) : Text :=
  Naming.conversationDir nfkd ((byId conversations id).bind (fun ec => ec.conversation.title)) id

def baseOf (plan : Plan) : Option UUID -> Text
  | none => text "conversations"
  | some p => plan.dir p ++ text "/branches"

/-- What `place` does for one conversation before it goes on to its children. -/
def addOne (plan : Plan) (e : UUID × Option UUID) : Plan :=
  plan.add e.1
    (freshPath plan.used (baseOf plan e.2) plan.used.length (dirName nfkd conversations e.1))

abbrev Walk : List (UUID × Option UUID) -> List UUID -> List (UUID × Option UUID) -> Prop :=
  Places (fun id => id ∈ nodes conversations) (childrenOf conversations)

variable {nfkd conversations}

theorem keys_addOnes (plan : Plan) (out : List (UUID × Option UUID)) :
    (out.foldl (addOne nfkd conversations) plan).keys =
      (out.map Prod.fst).reverse ++ plan.keys := by
  induction out generalizing plan with
  | nil => rfl
  | cons e out ih =>
      rw [List.foldl_cons, ih, List.map_cons, List.reverse_cons, List.append_assoc]
      rfl

theorem dir_addOnes {plan : Plan} {out : List (UUID × Option UUID)} {p : UUID}
    (h : p ∉ out.map Prod.fst) :
    (out.foldl (addOne nfkd conversations) plan).dir p = plan.dir p := by
  induction out generalizing plan with
  | nil => rfl
  | cons e out ih =>
      rw [List.map_cons, List.mem_cons, not_or] at h
      rw [List.foldl_cons, ih h.right]
      exact Plan.dir_add_of_ne _ h.left

def unplaced (conversations : List ExportConversation) (plan : Plan) : Nat :=
  ((nodes conversations).filter (fun id => !plan.has id)).length

theorem unplaced_add {plan : Plan} {id : UUID} (path : Text) (hnode : id ∈ nodes conversations)
    (hnew : id ∉ plan.keys) :
    unplaced conversations (plan.add id path) < unplaced conversations plan := by
  have hhas : forall x, (!(plan.add id path).has x) = (decide (x ≠ id) && !plan.has x) := by
    intro x
    show (!(decide (id = x) || plan.has x)) = _
    rw [Bool.not_or, ← decide_not, decide_eq_decide.mpr ne_comm]
  have hid : id ∈ (nodes conversations).filter (fun x => !plan.has x) := by
    rw [List.mem_filter]
    refine ⟨hnode, ?_⟩
    rw [Bool.not_eq_true', ← Bool.not_eq_true, Plan.has_iff]
    exact hnew
  unfold unplaced
  simp only [hhas]
  rw [← List.filter_filter, List.length_filter_lt_length_iff_exists]
  exact ⟨id, hid, by simp⟩

theorem unplaced_addOnes (plan : Plan) (out : List (UUID × Option UUID)) :
    unplaced conversations (out.foldl (addOne nfkd conversations) plan) ≤
      unplaced conversations plan := by
  apply List.Sublist.length_le
  apply List.monotone_filter_right
  intro x hx
  rw [Bool.not_eq_true', ← Bool.not_eq_true, Plan.has_iff] at hx ⊢
  rw [keys_addOnes, List.mem_append, not_or] at hx
  exact hx.right

/-!
# The recursion
-/

/-- The step of the loop over the children. -/
def childStep (nfkd : Text -> Text) (conversations : List ExportConversation) (depth : Nat)
    (base : Text) (plan : Plan) (child : UUID) : Plan :=
  if (byId conversations child).isSome && !plan.has child then
    place nfkd conversations depth child base plan
  else plan

theorem place_eq {depth : Nat} {id : UUID} (hnode : id ∈ nodes conversations)
    (q : Option UUID) (plan : Plan) :
    place nfkd conversations (depth + 1) id (baseOf plan q) plan =
      (childrenOf conversations id).foldl
        (childStep nfkd conversations depth
          (baseOf (addOne nfkd conversations plan (id, q)) (some id)))
        (addOne nfkd conversations plan (id, q)) := by
  rcases Option.isSome_iff_exists.mp ((byId_isSome conversations id).mpr hnode) with ⟨ec, hec⟩
  have hdir : (addOne nfkd conversations plan (id, q)).dir id =
      freshPath plan.used (baseOf plan q) plan.used.length
        (Naming.conversationDir nfkd ec.conversation.title id) := by
    unfold addOne dirName
    rw [Plan.dir_add_self, hec]
    rfl
  have hadd : addOne nfkd conversations plan (id, q) = plan.add id
      (freshPath plan.used (baseOf plan q) plan.used.length
        (Naming.conversationDir nfkd ec.conversation.title id)) := by
    unfold addOne dirName
    rw [hec]
    rfl
  rw [place, hec, childrenOf, hec, baseOf, hdir, hadd]
  rfl

/-- What the recursion does for a conversation that has no path yet. -/
def PlacesAt (nfkd : Text -> Text) (conversations : List ExportConversation) (depth : Nat) : Prop :=
  forall (id : UUID) (q : Option UUID) (plan : Plan), id ∈ nodes conversations ->
    id ∉ plan.keys -> unplaced conversations plan ≤ depth ->
    exists out, Walk conversations [(id, q)] plan.keys out ∧
      place nfkd conversations depth id (baseOf plan q) plan =
        out.foldl (addOne nfkd conversations) plan

theorem places_children {depth : Nat} (hplaces : PlacesAt nfkd conversations depth)
    {base : Text} {p : UUID} (children : List UUID) (plan : Plan) (hp : p ∈ plan.keys)
    (hbase : baseOf plan (some p) = base) (hdepth : unplaced conversations plan ≤ depth) :
    exists out, Walk conversations (children.map (fun c => (c, some p))) plan.keys out ∧
      children.foldl (childStep nfkd conversations depth base) plan =
        out.foldl (addOne nfkd conversations) plan := by
  induction children generalizing plan with
  | nil => exact ⟨[], .nil, rfl⟩
  | cons child children ih =>
      rw [List.foldl_cons, List.map_cons]
      by_cases hgo : ((byId conversations child).isSome && !plan.has child) = true
      · have hchild : child ∈ nodes conversations ∧ child ∉ plan.keys := by
          rw [Bool.and_eq_true, byId_isSome, Bool.not_eq_true', ← Bool.not_eq_true,
            Plan.has_iff] at hgo
          exact hgo
        rcases hplaces child (some p) plan hchild.left hchild.right hdepth with
          ⟨out, hwalk, hplace⟩
        have hstep : childStep nfkd conversations depth base plan child =
            out.foldl (addOne nfkd conversations) plan := by
          unfold childStep
          rw [if_pos hgo, ← hbase, hplace]
        have hfresh : p ∉ out.map Prod.fst :=
          fun hmem => (visits_fresh (visits_of_places hwalk) hmem).left hp
        have hkeys : p ∈ (out.foldl (addOne nfkd conversations) plan).keys := by
          rw [keys_addOnes]
          exact List.mem_append_right _ hp
        have hbase' : baseOf (out.foldl (addOne nfkd conversations) plan) (some p) = base := by
          rw [← hbase]
          show (out.foldl (addOne nfkd conversations) plan).dir p ++ text "/branches" =
            plan.dir p ++ text "/branches"
          rw [dir_addOnes hfresh]
        rcases ih _ hkeys hbase' ((unplaced_addOnes plan out).trans hdepth) with
          ⟨more, hmore, hfold⟩
        rw [keys_addOnes] at hmore
        refine ⟨out ++ more, places_append hwalk hmore, ?_⟩
        rw [hstep, hfold, List.foldl_append]
      · have hstep : childStep nfkd conversations depth base plan child = plan := if_neg hgo
        have hskip : child ∈ plan.keys ∨ child ∉ nodes conversations := by
          rw [Bool.and_eq_true, byId_isSome, Bool.not_eq_true', ← Bool.not_eq_true,
            Plan.has_iff, not_and, not_not] at hgo
          by_cases hnode : child ∈ nodes conversations
          · exact Or.inl (hgo hnode)
          · exact Or.inr hnode
        rcases ih plan hp hbase hdepth with ⟨out, hwalk, hfold⟩
        refine ⟨out, .skip hskip hwalk, ?_⟩
        rw [hstep, hfold]

theorem placesAt (nfkd : Text -> Text) (conversations : List ExportConversation) (depth : Nat) :
    PlacesAt nfkd conversations depth := by
  induction depth with
  | zero =>
      intro id q plan hnode hnew hdepth
      have hlt := unplaced_add [] hnode hnew
      exact absurd hlt (by omega)
  | succ depth ih =>
      intro id q plan hnode hnew hdepth
      have hlt : unplaced conversations (addOne nfkd conversations plan (id, q)) <
          unplaced conversations plan := unplaced_add _ hnode hnew
      rcases places_children (p := id) ih (childrenOf conversations id)
        (addOne nfkd conversations plan (id, q)) List.mem_cons_self rfl (by omega) with
        ⟨out, hwalk, hfold⟩
      refine ⟨(id, q) :: out, .visit hnew hnode ?_, ?_⟩
      · rw [List.append_nil]
        exact hwalk
      · rw [place_eq hnode, hfold, List.foldl_cons]

variable (nfkd)

theorem placeAll_places {depth : Nat} (ids : List UUID) (plan : Plan)
    (hids : forall id, id ∈ ids -> id ∈ nodes conversations)
    (hdepth : unplaced conversations plan ≤ depth) :
    exists out, Walk conversations (ids.map (fun id => (id, none))) plan.keys out ∧
      placeAll nfkd conversations depth ids plan = out.foldl (addOne nfkd conversations) plan := by
  induction ids generalizing plan with
  | nil => exact ⟨[], .nil, rfl⟩
  | cons id ids ih =>
      have hids' : forall id, id ∈ ids -> id ∈ nodes conversations :=
        fun x hx => hids x (List.mem_cons_of_mem id hx)
      unfold placeAll
      rw [List.foldl_cons, List.map_cons]
      by_cases hhas : plan.has id = true
      · rw [if_pos hhas]
        rcases ih plan hids' hdepth with ⟨out, hwalk, hfold⟩
        exact ⟨out, .skip (Or.inl ((Plan.has_iff plan id).mp hhas)) hwalk, hfold⟩
      · rw [if_neg hhas]
        rcases placesAt nfkd conversations depth id none plan (hids id List.mem_cons_self)
          (fun hmem => hhas ((Plan.has_iff plan id).mpr hmem)) hdepth with ⟨out, hwalk, hplace⟩
        rcases ih (out.foldl (addOne nfkd conversations) plan) hids'
          ((unplaced_addOnes plan out).trans hdepth) with ⟨more, hmore, hfold⟩
        rw [keys_addOnes] at hmore
        refine ⟨out ++ more, places_append hwalk hmore, ?_⟩
        have hbase : text "conversations" = baseOf plan none := rfl
        rw [hbase, hplace, List.foldl_append]
        exact hfold

theorem planDirs_places {depth : Nat} (hdepth : conversations.length ≤ depth) :
    exists out, Walk conversations
        ((roots conversations).map (fun id => (id, none)) ++
          (nodes conversations).map (fun id => (id, none))) [] out ∧
      planDirs nfkd conversations depth = out.foldl (addOne nfkd conversations) .empty := by
  have hroots : forall id, id ∈ roots conversations -> id ∈ nodes conversations := by
    intro id hid
    rcases List.mem_map.mp hid with ⟨ec, hec, rfl⟩
    exact List.mem_map.mpr ⟨ec, (List.mem_filter.mp hec).left, rfl⟩
  have hstart : unplaced conversations .empty ≤ depth := by
    have hle : ((nodes conversations).filter (fun id => !Plan.empty.has id)).length ≤
        (nodes conversations).length := List.length_filter_le _ _
    unfold nodes at hle
    rw [List.length_map] at hle
    exact hle.trans hdepth
  rcases placeAll_places nfkd (roots conversations) .empty hroots hstart with
    ⟨out, hwalk, hfold⟩
  rcases placeAll_places nfkd (nodes conversations) (out.foldl (addOne nfkd conversations) .empty)
    (fun _ hid => hid) ((unplaced_addOnes .empty out).trans hstart) with ⟨more, hmore, hfold'⟩
  rw [keys_addOnes] at hmore
  refine ⟨out ++ more, places_append hwalk hmore, ?_⟩
  unfold planDirs
  rw [hfold, List.foldl_append]
  exact hfold'

/-- More calls inside each other than there are conversations change nothing. -/
theorem planDirs_more {depth : Nat} (hdepth : conversations.length ≤ depth) :
    planDirs nfkd conversations depth = planDirs nfkd conversations conversations.length := by
  rcases planDirs_places nfkd hdepth with ⟨out, hwalk, hplan⟩
  rcases planDirs_places nfkd (Nat.le_refl conversations.length) with
    ⟨out', hwalk', hplan'⟩
  rw [hplan, hplan', places_unique hwalk hwalk']

end Walk

end ExportArchive
end ConversationService
