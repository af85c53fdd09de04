import TorchCraft.AutoBuild.Priority
import TorchCraft.AutoBuild.Rounds

/-!
# The chain of `depbuild`

The tech tree alone does not say that larvae come from hatcheries: `chain_spins` is a tree with a rank
in which `depbuild` goes back and forth for ever.
-/

set_option linter.unusedSectionVars false

namespace TorchCraft.AutoBuild
open Lib

variable {T : Type} [DecidableEq T] {tt : TechTree T} {st st' : BuildState T}

/-! ## what is due -/

def due (tt : TechTree T) (st : BuildState T) : BuildState T :=
  (completeDue tt none st.production st false).1

lemma completeDue_fst (build : Option T) (es : List (Int × T)) (st : BuildState T) (p : Bool) :
    (completeDue tt build es st p).1 = (completeDue tt none es st false).1 := by
  induction es generalizing st p with
  | nil => rfl
  | cons e es ih =>
    unfold completeDue
    split
    · exact ih _ _
    · rfl

lemma completed_fst (goal : Option (Goal T)) (s : BuildState T × Bool) :
    (completed tt goal s).1 = due tt s.1 := completeDue_fst ..

lemma due_frame (tt : TechTree T) (st : BuildState T) : (due tt st).frame = st.frame :=
  completeDue_frame ..

lemma completeDue_head (es : List (Int × T)) (st : BuildState T) (e : Int × T)
    (rest : List (Int × T)) (h : (completeDue tt none es st false).1.production = e :: rest) :
    st.frame < e.1 := by
  induction es generalizing st with
  | nil => cases h
  | cons e' es ih =>
    unfold completeDue at h
    split at h
    next =>
      have hlt := ih _ h
      rwa [completeOne_frame] at hlt
    next hlt =>
      cases h
      exact not_le.mp hlt

/-- nothing is due -/
def Settled (st : BuildState T) : Prop := ∀ e es, st.production = e :: es → st.frame < e.1

lemma due_settled (tt : TechTree T) (st : BuildState T) : Settled (due tt st) := by
  intro e es h
  rw [due_frame]
  exact completeDue_head st.production st e es h

lemma Settled.due_eq (h : Settled st) : due tt st = st := by
  unfold due
  cases hp : st.production with
  | nil =>
    show { st with production := [] } = _
    rw [← hp]
  | cons e rest =>
    rw [completeDue, if_neg (not_le.mpr (h e rest hp))]
    show { st with production := e :: rest } = _
    rw [← hp]

lemma due_due (tt : TechTree T) (st : BuildState T) : due tt (due tt st) = due tt st :=
  (due_settled tt st).due_eq

/-! ## calls that build nothing -/

variable {th : BuildEntry T} {r : Advanced T}

lemma tryBuild_unstarted {b : T} {addon : Option T} {p : Bool} (hr : r ≠ .success ∧ r ≠ .builtdep)
    (h : tryBuild tt st th b addon p = some (r, st')) : st' = st := by
  cases tryBuild_decided h with
  | refinery | prebuilt => exact absurd rfl hr.2
  | start => exact absurd rfl hr.1
  | maxedOut | supply | missing => rfl

variable {endFrame : Int}

lemma tick_lt (h : st.frame < endFrame) : st.frame < (tick st endFrame).frame := by
  rw [tick_frame]
  omega

variable {s d : BuildState T × Bool}

section
variable {goal : Option (Goal T)} (h : Decides tt goal endFrame s d) (hlt : s.1.frame < endFrame)
include h hlt

lemma Decides.frame_lt : d.1.frame < endFrame := by
  induction h with
  | here s => exact (completed_frame tt goal s).trans_lt hlt
  | later _ htime _ ih => exact ih htime

lemma Decides.due_or_later : d.1 = due tt s.1 ∨ s.1.frame < d.1.frame := by
  induction h with
  | here s => exact .inl (completed_fst goal s)
  | @later s d hwait htime _ ih =>
    have hstep := tick_lt ((completed_frame tt goal s).trans_lt hlt)
    rw [completed_frame] at hstep
    rcases ih htime with hd | hd
    · rw [hd, due_frame]
      exact .inr hstep
    · exact .inr (hstep.trans hd)

end

/-- **A call that builds nothing leaves the state, completes what is due, or lets time pass.** -/
theorem advance_unstarted (hr : r ≠ .success ∧ r ≠ .builtdep)
    (h : advance tt st (some th) endFrame = .ok (r, st')) :
    st' = st ∨ st' = due tt st ∨ st.frame < st'.frame := by
  by_cases hlt : st.frame < endFrame
  · rcases advance_decides hlt h with ⟨_, -, -, rfl⟩ | ⟨b, addon, p, d, -, -, hd, hres⟩
    · exact .inl rfl
    · have hwhen := hd.due_or_later hlt
      rcases hres with hres | ⟨-, -, rfl, -⟩
      · rw [tryBuild_unstarted hr hres]
        exact .inr hwhen
      · have htick := tick_lt (hd.frame_lt hlt)
        rcases hwhen with hwhen | hwhen
        · rw [hwhen, due_frame] at htick
          exact .inr (.inr (hwhen ▸ htick))
        · exact .inr (.inr (hwhen.trans htick))
  · rw [advance_late hlt] at h
    cases h
    exact .inl rfl

lemma advance_timeout (h : advance tt st (some th) endFrame = .ok (.timeout, st')) :
    endFrame ≤ st'.frame := by
  by_cases hlt : st.frame < endFrame
  · rcases advance_decides hlt h with ⟨_, -, ht, -⟩ | ⟨b, addon, p, d, -, -, -, hres⟩
    · cases ht
    · rcases hres with hres | ⟨-, -, -, hle⟩
      · exact absurd hres (tryBuild_ne_timeout d.1 st' th b addon d.2)
      · exact hle
  · rw [advance_late hlt] at h
    cases h
    exact not_lt.mp hlt

/-! ## the chain -/

def Unstarted (tt : TechTree T) (prevSt st : BuildState T) : Prop := st = prevSt ∨ st = due tt prevSt

variable {prevSt : BuildState T}

lemma Unstarted.restore (hst : Unstarted tt prevSt st) (hr : r ≠ .success ∧ r ≠ .builtdep)
    (h : advance tt st (some th) endFrame = .ok (r, st')) :
    Unstarted tt prevSt (restore prevSt st') := by
  have hframe : st.frame = prevSt.frame := by
    rcases hst with rfl | rfl
    · rfl
    · exact due_frame ..
  unfold AutoBuild.restore
  split
  · exact .inl rfl
  next hsame =>
    rcases advance_unstarted hr h with rfl | rfl | hlater
    · exact hst
    · rcases hst with rfl | rfl
      · exact .inr rfl
      · exact .inr (due_due ..)
    · rw [hframe] at hlater
      exact absurd hlater.ne' hsame

/-- **A chain that returns false has started nothing.** -/
theorem depLoop_unstarted {n : Nat} (hst : Unstarted tt prevSt st)
    (h : depLoop tt prevSt endFrame n st th = .ret (false, st')) : Unstarted tt prevSt st' := by
  induction n generalizing st th with
  | zero => cases h
  | succ n ih =>
    rw [depLoop] at h
    cases ha : advance tt st (some th) endFrame with
    | error e => rw [ha] at h; cases h
    | ok p =>
      obtain ⟨r, st₁⟩ := p
      have hnext : r ≠ .success ∧ r ≠ .builtdep → Unstarted tt prevSt (restore prevSt st₁) :=
        fun hr => hst.restore hr ha
      rw [ha] at h
      cases r with
      | success | builtdep => cases h
      | failed | timeout =>
        cases h
        exact hnext ⟨by simp, by simp⟩
      | needs type =>
        have hrest := hnext ⟨by simp, by simp⟩
        dsimp only at h
        split at h
        · cases h
          exact hrest
        · split at h
          · cases h
            exact hrest
          · exact ih hrest h

/-- **A chain that returns true has built something**, from the state or the state with what is due. -/
theorem depLoop_started {S : T → Prop}
    (hclosed : ∀ build t, S build → Dep tt build t → (tt.info t).isWorker = false → S t) {n : Nat}
    (hst : Unstarted tt prevSt st) (hth : S th.type)
    (h : depLoop tt prevSt endFrame n st th = .ret (true, st')) :
    ∃ st₁ th₁ r, Unstarted tt prevSt st₁ ∧ S th₁.type ∧ (r = .success ∨ r = .builtdep) ∧
      advance tt st₁ (some th₁) endFrame = .ok (r, st') := by
  induction n generalizing st th with
  | zero => cases h
  | succ n ih =>
    rw [depLoop] at h
    cases ha : advance tt st (some th) endFrame with
    | error e => rw [ha] at h; cases h
    | ok p =>
      obtain ⟨r, st₁⟩ := p
      rw [ha] at h
      cases r with
      | success =>
        cases h
        exact ⟨st, th, .success, hst, hth, .inl rfl, ha⟩
      | builtdep =>
        cases h
        exact ⟨st, th, .builtdep, hst, hth, .inr rfl, ha⟩
      | failed | timeout => cases h
      | needs type =>
        dsimp only at h
        split at h
        · cases h
        · split at h
          · cases h
          next hworker =>
            have hdep := hclosed _ _ hth (advance_needs ha) (by simpa using hworker)
            exact ih (hst.restore ⟨by simp, by simp⟩ ha) hdep h

/-! ## termination -/

/-- the rank of a type is above that of its prerequisites other than larvae, its builder and its
supply provider, except for workers -/
structure TreeRank (tt : TechTree T) (rank : T → Nat) : Prop where
  prerequisite : ∀ t, ∀ q ∈ (tt.info t).prerequisites, q ≠ tt.zergLarva →
    (tt.info q).isWorker = false → rank q < rank t
  builder : ∀ t b, (tt.info t).builder = some b → (tt.info b).isWorker = false → rank b < rank t
  supply : ∀ t, (tt.info t).supplyRequired ≠ 0 →
    (tt.info (tt.getRaceSupplyDepot (tt.info t).race)).isWorker = false →
      rank (tt.getRaceSupplyDepot (tt.info t).race) < rank t

def HatcheryBelow (tt : TechTree T) (rank : T → Nat) : Prop :=
  ∀ t, (tt.info t).builder = some tt.zergLarva → (tt.info tt.zergHatchery).isWorker = false →
    rank tt.zergHatchery < rank t

/-- what may have to be built on the way to a type; the chain ends at workers -/
def Chain (tt : TechTree T) : T → T → Prop :=
  Relation.ReflTransGen fun build t => Dep tt build t ∧ (tt.info t).isWorker = false

lemma TreeRank.rankedOn {rank : T → Nat} (hr : TreeRank tt rank) (hh : HatcheryBelow tt rank)
    {thing : T} (hb : ∀ t, Chain tt thing t → (tt.info t).builder.isSome) :
    RankedOn tt rank (Chain tt thing) where
  lt build t _ hd hw _ := by
    cases hd with
    | prerequisite ht hl => exact hr.prerequisite build t ht hl hw
    | supply hs => exact hr.supply build hs hw
    | builder h _ => exact hr.builder build t h hw
    | hatchery h => exact hh build h hw
  closed build t hS hd hw := hS.tail ⟨hd, hw⟩
  built := hb

/-- **`depbuild` terminates**, after at most `rank + 1` calls of `advance`, for a thing whose chain
can be built in a tech tree with a rank and the hatchery below what is made of larvae; if it returns
false nothing was started. -/
theorem depbuild_terminates (tt : TechTree T) (rank : T → Nat) (hr : TreeRank tt rank)
    (hh : HatcheryBelow tt rank) (thing : BuildEntry T)
    (hb : ∀ t, Chain tt thing.type t → (tt.info t).builder.isSome = true) :
    (∀ e : BuildEntry T, Chain tt thing.type e.type → ∀ st endFrame, ∃ r st',
      advance tt st (some e) endFrame = .ok (r, st') ∧ (r = .timeout → endFrame ≤ st'.frame)) ∧
    (∀ st prevSt, ∃ r, ∀ n, rank thing.type < n → depbuild tt st prevSt thing n = .ret r) ∧
    ∀ st st', Returns (depbuild tt st st thing) (false, st') → st' = st ∨ st' = due tt st := by
  refine ⟨fun e he st endFrame => ?_, fun st prevSt => ?_, fun st st' h => ?_⟩
  · obtain ⟨r, st', h⟩ := advance_ok st endFrame (hb e.type he)
    refine ⟨r, st', h, ?_⟩
    rintro rfl
    exact advance_timeout h
  · obtain ⟨r, h⟩ := depLoop_returns (hr.rankedOn hh hb) prevSt (st.frame + 15 * 60 * 10)
      (rank thing.type + 1) st thing .refl (Nat.lt_succ_self _)
    exact ⟨r, fun n hn => stable_depbuild st prevSt thing _ n hn r h⟩
  · obtain ⟨n, hn⟩ := h
    exact depLoop_unstarted (.inl rfl) (hn n le_rfl)

/-! ## two trees -/

lemma toyTree_rank : TreeRank toyTree toyRank := ⟨by decide, by decide, by decide +kernel⟩

/-- a zergling needs a pool, which is started -/
theorem depbuild_terminates_zergling :
    ∃ r, ∀ n, 3 < n → depbuild toyTree toyState toyState { type := .zergling } n = .ret r := by
  refine (depbuild_terminates toyTree toyRank toyTree_rank ?_ { type := .zergling } ?_).2.1
    toyState toyState
  · unfold HatcheryBelow
    decide
  · intro t ht
    cases ht with
    | refl => rfl
    | tail _ h => exact toyTree_ranked.built _ t h.1 h.2

/-- `toyTree` with hatcheries that need a zergling, and zerglings that need nothing -/
def loopTree : TechTree Toy where
  __ := toyTree
  info
    | .hatchery => { builder := some .drone, prerequisites := [.zergling] }
    | .zergling => { builder := some .larva }
    | t => toyTree.info t

def loopRank : Toy → Nat
  | .larva => 0
  | .overlord => 1
  | .zergling => 1
  | .drone => 2
  | .hatchery => 2
  | .pool => 3
  | .other => 0

def stranded : BuildState Toy where
  maxSupply := fun _ => 9
  units := Roster.empty.push { type := .drone }

lemma depbuild_error {st prevSt : BuildState T} {thing : BuildEntry T} {e : String} {n : Nat}
    (h : advance tt st (some thing) (st.frame + 15 * 60 * 10) = .error e) (hn : 0 < n) :
    depbuild tt st prevSt thing n = .raise e := by
  obtain ⟨n, rfl⟩ := Nat.exists_eq_succ_of_ne_zero hn.ne'
  rw [depbuild, depLoop, h]

/-- **A rank of the tree is not enough**: a zergling asks for a hatchery, and the hatchery for a
zergling; and a thing without builder raises. -/
theorem chain_spins : TreeRank loopTree loopRank ∧
    (∀ n, depbuild loopTree stranded stranded { type := .zergling } n = .spin) ∧
    ∃ e, ∀ n, 0 < n → depbuild loopTree stranded stranded { type := .other } n = .raise e := by
  refine ⟨⟨by decide, by decide, by decide +kernel⟩, fun n => ?_, ?_⟩
  swap
  · cases hother : advance loopTree stranded (some { type := .other }) 9000 with
    | error e => exact ⟨e, fun n hn => depbuild_error hother hn⟩
    | ok r =>
      have hfails : (advance loopTree stranded (some { type := .other }) 9000).toBool = false := by
        decide +kernel
      rw [hother] at hfails
      cases hfails
  have hnext : ∀ {t t' : Toy} {st' : BuildState Toy},
      advance loopTree stranded (some { type := t }) 9000 = .ok (.needs t', st') →
        restore stranded st' = stranded := by
    intro t t' st' h
    rcases (Unstarted.restore (.inl rfl) ⟨by simp, by simp⟩ h : Unstarted loopTree stranded _) with h | h
    · exact h
    · exact h
  obtain ⟨st₁, hzergling⟩ := ok_of_fst (a := Advanced.needs Toy.hatchery)
    (x := advance loopTree stranded (some { type := .zergling }) 9000) (by decide +kernel)
  obtain ⟨st₂, hhatchery⟩ := ok_of_fst (a := Advanced.needs Toy.zergling)
    (x := advance loopTree stranded (some { type := .hatchery }) 9000) (by decide +kernel)
  -- two rounds, one for each of the two types
  suffices h : depLoop loopTree stranded 9000 n stranded { type := .zergling } = .spin ∧
      depLoop loopTree stranded 9000 n stranded { type := .hatchery } = .spin from h.1
  induction n with
  | zero => exact ⟨rfl, rfl⟩
  | succ n ih =>
    constructor
    · rw [depLoop, hzergling]
      dsimp only
      rw [hnext hzergling, if_neg (by decide +kernel), if_neg (by decide +kernel)]
      exact ih.2
    · rw [depLoop, hhatchery]
      dsimp only
      rw [hnext hhatchery, if_neg (by decide +kernel), if_neg (by decide +kernel)]
      exact ih.1

end TorchCraft.AutoBuild
