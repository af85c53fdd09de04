import Mathlib.Data.List.Find
import TorchCraft.Blob.Disk

/-!
# The disk store as a versioned store

* `FS.file_write`, `FS.file_rename_moved`, …  what the file operations do to each file;
* `Separate`  no key is in the way of another one;
* `Stored`, `stored_put`  the files of separate keys: the last blob of each key and the first ten
  of the earlier ones;
* `Flat`, `unblocked`  a key whose file is a directory of another key takes that key's files away;
* `disk_faithful_iff`  when the store is faithful.
-/

namespace TorchCraft.BlobStorage
open List
open FS

/-! ## files after an operation -/

namespace FS
variable {fs : FS} {p q src dest : Path}

lemma file_isSome : (fs.file p).isSome ↔ ∃ e ∈ fs, e.1 = p := by
  unfold file
  rw [Option.isSome_map, find?_isSome]
  simp

lemma exists_file (P : Path → Prop) : (∃ e ∈ fs, P e.1) ↔ ∃ q, P q ∧ (fs.file q).isSome := by
  simp only [file_isSome]
  constructor
  · rintro ⟨e, he, hp⟩
    exact ⟨e.1, hp, e, he, rfl⟩
  · rintro ⟨q, hp, e, he, rfl⟩
    exact ⟨e, he, hp⟩

lemma present_iff : fs.present p ↔ ∃ q, p <+: q ∧ (fs.file q).isSome := by
  simp only [present, any_eq_true, decide_eq_true_eq, exists_file (p <+: ·)]

lemma isdir_iff : fs.isdir p ↔ ∃ q, p <+: q ∧ q ≠ p ∧ (fs.file q).isSome := by
  simp only [isdir, any_eq_true, decide_eq_true_eq, exists_file fun q => p <+: q ∧ q ≠ p, and_assoc]

lemma blocked_iff : fs.blocked p ↔ ∃ q, q <+: p ∧ (fs.file q).isSome := by
  simp only [blocked, any_eq_true, decide_eq_true_eq, exists_file (· <+: p)]

lemma file_write (fs : FS) (p q : Path) (content : List UInt8) :
    (fs.write p content).file q = if q = p then some content else fs.file q := by
  unfold write file
  by_cases h : q = p
  · rw [if_pos h, find?_cons_of_pos (by simp [h])]
    rfl
  · rw [if_neg h, find?_cons_of_neg (by simp [Ne.symm h]), find?_filter]
    congr 1
    refine find?_congr fun e _ => ?_
    by_cases he : e.1 = q
    · simp [he, h]
    · simp [he]

def moved (src dest p : Path) : Path := if src <+: p then dest ++ p.drop src.length else p

lemma file_rename (fs : FS) (src dest q : Path) :
    (fs.rename src dest).file q
      = (fs.find? fun e => decide (moved src dest e.1 = q)).map Prod.snd := by
  unfold rename file
  rw [find?_map, Option.map_map]
  have hf : ∀ e : Path × List UInt8, (if src <+: e.1 then (dest ++ e.1.drop src.length, e.2) else e)
      = (moved src dest e.1, e.2) := fun e => by
    unfold moved
    split <;> rfl
  congr 1
  · funext e
    simp only [Function.comp, hf]
  · congr 1
    funext e
    simp only [Function.comp, hf]

lemma file_rename_moved (hd : fs.present dest = false) (r : Path) :
    (fs.rename src dest).file (dest ++ r) = fs.file (src ++ r) := by
  rw [file_rename, file]
  congr 1
  refine find?_congr fun e he => decide_eq_decide.mpr ?_
  unfold moved
  split
  next hs =>
    obtain ⟨t, ht⟩ := hs
    rw [← ht, drop_left, append_cancel_left_eq, append_cancel_left_eq]
  next hs =>
    constructor
    · intro h
      have hp : fs.present dest := present_iff.mpr
        ⟨e.1, h ▸ prefix_append _ _, file_isSome.mpr ⟨e, he, rfl⟩⟩
      rw [hp] at hd
      cases hd
    · intro h
      exact absurd (h ▸ prefix_append _ _) hs

lemma file_rename_other (hd : ¬ dest <+: q) (hs : ¬ src <+: q) :
    (fs.rename src dest).file q = fs.file q := by
  rw [file_rename, file]
  congr 1
  refine find?_congr fun e _ => decide_eq_decide.mpr ?_
  unfold moved
  split
  next hse =>
    constructor
    · rintro rfl
      exact absurd (prefix_append _ _) hd
    · rintro rfl
      exact absurd hse hs
  next => exact Iff.rfl

lemma file_rename_src (hd : ¬ dest <+: q) (hs : src <+: q) :
    (fs.rename src dest).file q = none := by
  rw [file_rename, Option.map_eq_none_iff, find?_eq_none]
  intro e _ h
  rw [decide_eq_true_eq] at h
  subst h
  unfold moved at hd hs
  split at hs
  next he =>
    rw [if_pos he] at hd
    exact hd (prefix_append _ _)
  next he => exact he hs

end FS

/-! ## the names of a key -/

variable {i : Nat} {U : List Key} {ops : List (Key × Blob)} {fs : FS} {k : Key} {root : String}

namespace Key

lemma path_inj {k k' : Key} (h : k.path = k'.path) : k = k' := by
  obtain ⟨hd, hn⟩ := append_inj' h rfl
  have hn : k.name = k'.name := (String.append_left_inj _).mp (List.cons.inj hn).1
  obtain ⟨d, n⟩ := k
  obtain ⟨d', n'⟩ := k'
  simp only at hd hn
  rw [hd, hn]

lemma append_dash_inj {a a' d d' : List Char} (hd : '-' ∉ d) (hd' : '-' ∉ d')
    (h : a ++ '-' :: d = a' ++ '-' :: d') : a = a' ∧ d = d' := by
  have hr : d.reverse ++ '-' :: a.reverse = d'.reverse ++ '-' :: a'.reverse := by
    simpa using congrArg reverse h
  have hspan : ∀ {d a : List Char}, '-' ∉ d →
      (d.reverse ++ '-' :: a.reverse).takeWhile (fun c => decide (c ≠ '-')) = d.reverse := by
    intro d a hd
    rw [takeWhile_append_of_pos]
    · simp
    · intro c hc
      rw [decide_eq_true_eq]
      rintro rfl
      exact hd (mem_reverse.mp hc)
  have hdd : d = d' := reverse_injective (by rw [← hspan hd (a := a), hr, hspan hd'])
  subst hdd
  exact ⟨by simpa using h, rfl⟩

lemma number_no_dash : ∀ i < kMaxOldVersions, '-' ∉ (ToString.toString (i + 1)).toList := by
  decide

lemma number_inj : ∀ i < kMaxOldVersions, ∀ j < kMaxOldVersions,
    (ToString.toString (i + 1)).toList = (ToString.toString (j + 1)).toList → i = j := by
  decide

lemma backupPath_inj {k k' : Key} {j : Nat} (hi : i < kMaxOldVersions) (hj : j < kMaxOldVersions)
    (h : k.backupPath (i + 1) = k'.backupPath (j + 1)) : k = k' ∧ i = j := by
  obtain ⟨hd, hn⟩ := append_inj' h rfl
  have hn := congrArg String.toList (List.cons.inj hn).1
  simp only [String.toList_append] at hn
  have hold : ".old-".toList = ".old".toList ++ ['-'] := by decide
  rw [hold, ← append_assoc, ← append_assoc, append_assoc _ ['-'], append_assoc _ ['-']] at hn
  obtain ⟨hname, hnum⟩ := append_dash_inj (number_no_dash i hi) (number_no_dash j hj) hn
  have hname : k.name = k'.name :=
    String.toList_inj.mp (append_cancel_right (append_cancel_right hname))
  obtain ⟨d, n⟩ := k
  obtain ⟨d', n'⟩ := k'
  simp only at hd hname
  exact ⟨by rw [hd, hname], number_inj i hi j hj hnum⟩

end Key

/-! ## separate keys -/

/-- none of the keys passes through the name of a backup -/
def Unclashing (U : List Key) : Prop :=
  ∀ k ∈ U, ∀ k' ∈ U, ∀ i < kMaxOldVersions, ¬ k.backupPath (i + 1) <+: k'.path

/-- no key's file is a directory of another key -/
def Flat (U : List Key) : Prop := ∀ k ∈ U, ∀ k' ∈ U, ¬ k.path <+: k'.dirs

def Named (U : List Key) (p : Path) : Prop :=
  ∃ k ∈ U, p = k.path ∨ ∃ i < kMaxOldVersions, p = k.backupPath (i + 1)

section Separate
variable {U : List Key} (hc : Unclashing U) {k : Key} (hk : k ∈ U) {p : Path}

include hc hk

lemma Named.eq_path (hf : Flat U) (hp : Named U p) (h : k.path <+: p) : p = k.path := by
  obtain ⟨k', hk', rfl | ⟨i, hi, rfl⟩⟩ := hp
  · rcases prefix_concat_iff.mp h with h | h
    · exact h.symm
    · exact absurd h (hf k hk k' hk')
  · rcases prefix_concat_iff.mp h with h | h
    · exact absurd (h ▸ prefix_rfl) (hc k' hk' k hk i hi)
    · exact absurd h (hf k hk k' hk')

lemma Named.eq_backupPath (hp : Named U p) (hi : i < kMaxOldVersions)
    (h : k.backupPath (i + 1) <+: p) : p = k.backupPath (i + 1) := by
  obtain ⟨k', hk', rfl | ⟨j, hj, rfl⟩⟩ := hp
  · exact absurd h (hc k hk k' hk' i hi)
  · rcases prefix_concat_iff.mp h with h | h
    · exact h.symm
    · exact absurd (h.trans (prefix_append _ _)) (hc k hk k' hk' i hi)

lemma Named.not_prefix_dirs (hf : Flat U) (hp : Named U p) : ¬ p <+: k.dirs := by
  intro h
  obtain ⟨k', hk', rfl | ⟨i, hi, rfl⟩⟩ := hp
  · exact hf k' hk' k hk h
  · exact hc k' hk' k hk i hi (h.trans (prefix_append _ _))

end Separate

/-! ## what is stored -/

def datas (ops : List (Key × Blob)) (k : Key) : List Blob :=
  (ops.filter fun o => decide (o.1 = k)).map Prod.snd

lemma datas_snoc (ops : List (Key × Blob)) (k k' : Key) (d : Blob) :
    datas (ops ++ [(k', d)]) k = if k' = k then datas ops k ++ [d] else datas ops k := by
  unfold datas
  rw [filter_append, map_append]
  by_cases h : k' = k <;> simp [h]

/-- the files of the keys `U` after `ops` -/
structure Stored (U : List Key) (ops : List (Key × Blob)) (fs : FS) : Prop where
  last : ∀ k ∈ U, fs.file k.path = (datas ops k).getLast?.map encode
  old : ∀ k ∈ U, ∀ i < kMaxOldVersions,
    fs.file (k.backupPath (i + 1)) = ((datas ops k).dropLast[i]?).map encode
  named : ∀ p, (fs.file p).isSome = true → Named U p

lemma stored_nil (U : List Key) : Stored U [] [] where
  last _ _ := rfl
  old _ _ _ _ := rfl
  named _ h := by cases h

section Put

/-- after the backup all earlier blobs of the key, up to ten, are stored -/
structure BackedUp (U : List Key) (ops : List (Key × Blob)) (fs : FS) (k : Key) (fs' : FS) :
    Prop where
  old : ∀ i < kMaxOldVersions, fs'.file (k.backupPath (i + 1)) = ((datas ops k)[i]?).map encode
  other : ∀ k' ∈ U, k' ≠ k → fs'.file k'.path = fs.file k'.path ∧
    ∀ i < kMaxOldVersions, fs'.file (k'.backupPath (i + 1)) = fs.file (k'.backupPath (i + 1))
  named : ∀ p, (fs'.file p).isSome = true → Named U p

variable (hs : Stored U ops fs) (hc : Unclashing U) (hf : Flat U) (hk : k ∈ U)

include hs hc hk in
lemma present_backupPath (hi : i < kMaxOldVersions) :
    fs.present (k.backupPath (i + 1)) = decide (i < (datas ops k).dropLast.length) := by
  have hfile := hs.old k hk i hi
  rw [Bool.eq_iff_iff, present_iff, decide_eq_true_eq]
  constructor
  · rintro ⟨q, hq, hsome⟩
    rw [(hs.named q hsome).eq_backupPath hc hk hi hq, hfile] at hsome
    simpa using hsome
  · intro hlt
    refine ⟨_, prefix_rfl, ?_⟩
    rw [hfile]
    simpa using hlt

include hs hc hf hk in
lemma present_path : fs.present k.path = !(datas ops k).isEmpty := by
  have hfile := hs.last k hk
  rw [Bool.eq_iff_iff, present_iff]
  constructor
  · rintro ⟨q, hq, hsome⟩
    rw [(hs.named q hsome).eq_path hc hk hf hq, hfile] at hsome
    cases hd : datas ops k with
    | nil => rw [hd] at hsome; cases hsome
    | cons d ds => rfl
  · intro hne
    refine ⟨_, prefix_rfl, ?_⟩
    rw [hfile]
    simpa using hne

include hs hc hk in
lemma freeBackup_eq : freeBackup fs k = if (datas ops k).dropLast.length < kMaxOldVersions
    then some (datas ops k).dropLast.length else none := by
  unfold freeBackup
  split
  next hlt =>
    rw [find?_range_eq_some]
    refine ⟨?_, mem_range.mpr hlt, fun j hj => ?_⟩
    · rw [present_backupPath hs hc hk hlt]
      simp
    · rw [present_backupPath hs hc hk (hj.trans hlt)]
      simpa using hj
  next hge =>
    rw [find?_eq_none]
    intro i hi
    rw [present_backupPath hs hc hk (mem_range.mp hi)]
    have := mem_range.mp hi
    simp only [Bool.not_eq_true', Bool.not_eq_false, decide_eq_true_eq]
    omega

lemma getElem?_of_dropLast {α : Type} {l : List α} (hi : i ≠ l.dropLast.length) :
    l[i]? = l.dropLast[i]? := by
  rw [length_dropLast] at hi
  rw [getElem?_dropLast]
  split
  · rfl
  · exact getElem?_eq_none (by omega)

include hs hc hf hk in
lemma backedUp_rename (hlt : (datas ops k).dropLast.length < kMaxOldVersions) :
    BackedUp U ops fs k
      (fs.rename k.path (k.backupPath ((datas ops k).dropLast.length + 1))) := by
  set n := (datas ops k).dropLast.length with hn
  have hfree : fs.present (k.backupPath (n + 1)) = false := by
    rw [present_backupPath hs hc hk hlt, hn]
    simp
  have hnp : ∀ k' ∈ U, k' ≠ k → Named U k'.path ∧ ¬ k.path <+: k'.path := fun k' hk' hne =>
    have hp : Named U k'.path := ⟨k', hk', Or.inl rfl⟩
    ⟨hp, fun h => hne (Key.path_inj (hp.eq_path hc hk hf h))⟩
  have hnb : ∀ k' ∈ U, ∀ i < kMaxOldVersions,
      Named U (k'.backupPath (i + 1)) ∧ ¬ k.path <+: k'.backupPath (i + 1) := fun k' hk' i hi =>
    have hp : Named U (k'.backupPath (i + 1)) := ⟨k', hk', Or.inr ⟨i, hi, rfl⟩⟩
    ⟨hp, fun h => hc k' hk' k hk i hi (hp.eq_path hc hk hf h ▸ prefix_rfl)⟩
  refine ⟨fun i hi => ?_, fun k' hk' hne => ⟨?_, fun i hi => ?_⟩, fun p hp => ?_⟩
  · by_cases hin : i = n
    · have hmoved : (fs.rename k.path (k.backupPath (n + 1))).file _ = fs.file (k.path ++ []) :=
        file_rename_moved hfree []
      rw [append_nil, append_nil, hs.last k hk, getLast?_eq_getElem?, ← length_dropLast] at hmoved
      rw [hin, hmoved]
    · obtain ⟨hp, hsrc⟩ := hnb k hk i hi
      rw [file_rename_other (fun h => hin (Key.backupPath_inj hi hlt
        (hp.eq_backupPath hc hk hlt h)).2) hsrc, hs.old k hk i hi, getElem?_of_dropLast hin]
  · exact file_rename_other (hc k hk k' hk' n hlt) (hnp k' hk' hne).2
  · obtain ⟨hp, hsrc⟩ := hnb k' hk' i hi
    exact file_rename_other (fun h => hne (Key.backupPath_inj hi hlt
      (hp.eq_backupPath hc hk hlt h)).1) hsrc
  · by_cases hd : k.backupPath (n + 1) <+: p
    · obtain ⟨r, rfl⟩ := hd
      rw [file_rename_moved hfree] at hp
      have heq := (hs.named _ hp).eq_path hc hk hf (prefix_append _ _)
      rw [append_right_eq_self.mp heq, append_nil]
      exact ⟨k, hk, Or.inr ⟨n, hlt, rfl⟩⟩
    · by_cases hsrc : k.path <+: p
      · rw [file_rename_src hd hsrc] at hp
        cases hp
      · rw [file_rename_other hd hsrc] at hp
        exact hs.named p hp

include hs hc hf hk in
lemma backedUp_backup : BackedUp U ops fs k (backup fs k) := by
  have hkeep : (∀ i < kMaxOldVersions, i ≠ (datas ops k).dropLast.length ∨ datas ops k = []) →
      BackedUp U ops fs k fs := fun h =>
    ⟨fun i hi => by
      rcases h i hi with hne | hnil
      · rw [hs.old k hk i hi, getElem?_of_dropLast hne]
      · rw [hs.old k hk i hi, hnil]
        rfl, fun _ _ _ => ⟨rfl, fun _ _ => rfl⟩, hs.named⟩
  unfold backup
  rw [present_path hs hc hf hk, freeBackup_eq hs hc hk]
  by_cases hempty : datas ops k = []
  · rw [hempty]
    exact hkeep fun i _ => Or.inr hempty
  · rw [if_pos (by simpa using hempty)]
    by_cases hlt : (datas ops k).dropLast.length < kMaxOldVersions
    · rw [if_pos hlt]
      exact backedUp_rename hs hc hf hk hlt
    · rw [if_neg hlt]
      exact hkeep fun i hi => Or.inl (by omega)

include hs hc hf hk in
/-- **A put of one of the keys succeeds, and the files are those of the longer history.** -/
theorem stored_put (root : String) (d : Blob) :
    ∃ fs', put root fs k d = .ok fs' ∧ Stored U (ops ++ [(k, d)]) fs' := by
  have hb := backedUp_backup hs hc hf hk
  have hblocked : fs.blocked k.dirs = false := by
    rw [Bool.eq_false_iff, Ne, blocked_iff]
    rintro ⟨q, hq, hsome⟩
    exact (hs.named q hsome).not_prefix_dirs hc hk hf hq
  have hdir : (backup fs k).isdir k.path = false := by
    rw [Bool.eq_false_iff, Ne, isdir_iff]
    rintro ⟨q, hq, hne, hsome⟩
    exact hne ((hb.named q hsome).eq_path hc hk hf hq)
  refine ⟨(backup fs k).write k.path (encode d), ?_, fun k' hk' => ?_, fun k' hk' i hi => ?_,
    fun p hp => ?_⟩
  · unfold put
    rw [hblocked, hdir]
    rfl
  · rw [file_write, datas_snoc]
    by_cases hkk : k = k'
    · subst hkk
      rw [if_pos rfl, if_pos rfl, getLast?_concat, Option.map_some]
    · rw [if_neg fun h => hkk (Key.path_inj h).symm, if_neg hkk,
        (hb.other k' hk' (Ne.symm hkk)).1, hs.last k' hk']
  · have hne : k'.backupPath (i + 1) ≠ k.path := fun h =>
      hc k' hk' k hk i hi (h ▸ prefix_rfl)
    rw [file_write, datas_snoc, if_neg hne]
    by_cases hkk : k = k'
    · subst hkk
      rw [if_pos rfl, dropLast_concat, hb.old i hi]
    · rw [if_neg hkk, (hb.other k' hk' (Ne.symm hkk)).2 i hi, hs.old k' hk' i hi]
  · rw [file_write] at hp
    split at hp
    next h => exact ⟨k, hk, Or.inl h⟩
    next => exact hb.named p hp

end Put

lemma stored_putAll {U : List Key} (hc : Unclashing U) (hf : Flat U) (root : String)
    (os ops : List (Key × Blob)) {fs fs' : FS} (hs : Stored U ops fs) (hU : ∀ o ∈ os, o.1 ∈ U)
    (h : putAll root fs os = .ok fs') : Stored U (ops ++ os) fs' := by
  induction os generalizing ops fs with
  | nil =>
    cases h
    rwa [append_nil]
  | cons o os ih =>
    obtain ⟨fs₁, hput, hs₁⟩ := stored_put hs hc hf (hU o (mem_cons_self ..)) root o.2
    unfold putAll at h
    rw [hput] at h
    have := ih (ops ++ [o]) hs₁ (fun o' ho' => hU o' (mem_cons_of_mem _ ho')) h
    rwa [append_assoc] at this

/-! ## nested keys -/

section Nested
variable {fs fs' : FS} {k : Key}

lemma backup_cases (fs : FS) (k : Key) : backup fs k = fs ∨
    ∃ i, fs.present (k.backupPath (i + 1)) = false ∧
      backup fs k = fs.rename k.path (k.backupPath (i + 1)) := by
  unfold backup
  split
  · split
    next i hi =>
      have hfree := find?_some hi
      exact Or.inr ⟨i, by simpa using hfree, rfl⟩
    next => exact Or.inl rfl
  · exact Or.inl rfl

lemma put_eq_ok {d : Blob} (h : put root fs k d = .ok fs') :
    fs.blocked k.dirs = false ∧ (backup fs k).isdir k.path = false ∧
      fs' = (backup fs k).write k.path (encode d) := by
  unfold put at h
  split at h
  · cases h
  next hb =>
    split at h
    · cases h
    next hd =>
      cases h
      exact ⟨by simpa using hb, by simpa using hd, rfl⟩

lemma FS.file_rename_cases {src dest q : Path} (hd : fs.present dest = false)
    (h : ((fs.rename src dest).file q).isSome) :
    (∃ r, q = dest ++ r ∧ (fs.file (src ++ r)).isSome) ∨
      (¬ dest <+: q ∧ (fs.file q).isSome) := by
  by_cases hq : dest <+: q
  · obtain ⟨r, rfl⟩ := hq
    rw [file_rename_moved hd] at h
    exact Or.inl ⟨r, rfl, h⟩
  · by_cases hs : src <+: q
    · rw [file_rename_src hq hs] at h
      cases h
    · rw [file_rename_other hq hs] at h
      exact Or.inr ⟨hq, h⟩

lemma unblocked_backup (hb : fs.blocked k.dirs = false) : (backup fs k).blocked k.dirs = false := by
  rcases backup_cases fs k with h | ⟨i, hfree, h⟩
  · rw [h, hb]
  · rw [h, Bool.eq_false_iff, Ne, blocked_iff]
    rintro ⟨q, hq, hsome⟩
    rcases file_rename_cases hfree hsome with ⟨r, rfl, -⟩ | ⟨-, hsome⟩
    · have hlen := hq.length_le
      simp only [Key.backupPath, length_append, length_singleton] at hlen
      omega
    · rw [Bool.eq_false_iff, Ne, blocked_iff] at hb
      exact hb ⟨q, hq, hsome⟩

/-- no file is beneath another one -/
def Apart (fs : FS) : Prop := ∀ p q, (fs.file p).isSome = true → (fs.file q).isSome = true →
  p <+: q → p = q

lemma apart_backup (ha : Apart fs) (hb : fs.blocked k.dirs = false) : Apart (backup fs k) := by
  rcases backup_cases fs k with h | ⟨i, hfree, h⟩
  · rwa [h]
  · rw [h]
    intro p q hp hq hpq
    rcases file_rename_cases hfree hp with ⟨r, rfl, hr⟩ | ⟨hpd, hp⟩ <;>
      rcases file_rename_cases hfree hq with ⟨r', rfl, hr'⟩ | ⟨hqd, hq⟩
    · have := ha _ _ hr hr' ((prefix_append_right_inj _).mpr
        ((prefix_append_right_inj _).mp hpq))
      rw [append_cancel_left this]
    · exact absurd ((prefix_append _ _).trans hpq) hqd
    · -- a file that stayed is neither beneath the new name nor on the way to it
      rcases prefix_or_prefix_of_prefix hpq (prefix_append _ r') with h' | h'
      · rcases prefix_concat_iff.mp h' with h' | h'
        · exact absurd (h' ▸ prefix_rfl) hpd
        · rw [Bool.eq_false_iff, Ne, blocked_iff] at hb
          exact absurd ⟨p, h', hp⟩ hb
      · exact absurd h' hpd
    · exact ha p q hp hq hpq

lemma apart_put {d : Blob} (ha : Apart fs) (h : put root fs k d = .ok fs') : Apart fs' := by
  obtain ⟨hb, hdir, rfl⟩ := put_eq_ok h
  have hab := apart_backup ha hb
  have hbb := unblocked_backup hb
  rw [Bool.eq_false_iff, Ne, isdir_iff] at hdir
  rw [Bool.eq_false_iff, Ne, blocked_iff] at hbb
  intro p q hp hq hpq
  rw [file_write] at hp hq
  by_cases hpk : p = k.path <;> by_cases hqk : q = k.path
  · rw [hpk, hqk]
  · rw [if_neg hqk] at hq
    exact absurd ⟨q, hpk ▸ hpq, hqk, hq⟩ hdir
  · rw [if_neg hpk] at hp
    subst hqk
    rcases prefix_concat_iff.mp hpq with h' | h'
    · exact h'
    · exact absurd ⟨p, h', hp⟩ hbb
  · rw [if_neg hpk] at hp
    rw [if_neg hqk] at hq
    exact hab p q hp hq hpq

/-- a file that is moved away leaves a file in front of it -/
lemma blocked_put {d : Blob} {p : Path} (h : put root fs k d = .ok fs')
    (hp : fs.blocked p) : fs'.blocked p := by
  obtain ⟨-, -, rfl⟩ := put_eq_ok h
  obtain ⟨q, hq, hsome⟩ := blocked_iff.mp hp
  rw [blocked_iff]
  by_cases hkq : k.path <+: q
  · refine ⟨k.path, hkq.trans hq, ?_⟩
    rw [file_write, if_pos rfl]
    rfl
  · have hstay : ((backup fs k).file q).isSome := by
      rcases backup_cases fs k with h | ⟨i, hfree, h⟩
      · rwa [h]
      · rw [h, file_rename_other _ hkq]
        · exact hsome
        · intro hd
          rw [Bool.eq_false_iff, Ne, present_iff] at hfree
          exact hfree ⟨q, hd, hsome⟩
    refine ⟨q, hq, ?_⟩
    rw [file_write]
    split
    · rfl
    · exact hstay

lemma blocked_putAll (root : String) (os : List (Key × Blob)) {fs fs' : FS} (ha : Apart fs)
    (h : putAll root fs os = .ok fs') :
    Apart fs' ∧ (∀ p, fs.blocked p → fs'.blocked p) ∧
      ∀ o ∈ os, fs'.blocked o.1.path := by
  induction os generalizing fs with
  | nil =>
    cases h
    exact ⟨ha, fun _ hp => hp, nofun⟩
  | cons o os ih =>
    unfold putAll at h
    split at h
    · cases h
    next fs₁ hput =>
      obtain ⟨ha', hmono, hall⟩ := ih (apart_put ha hput) h
      refine ⟨ha', fun p hp => hmono p (blocked_put hput hp), forall_mem_cons.mpr
        ⟨hmono _ (blocked_iff.mpr ⟨_, prefix_rfl, ?_⟩), hall⟩⟩
      obtain ⟨-, -, rfl⟩ := put_eq_ok hput
      rw [file_write, if_pos rfl]
      rfl

end Nested

/-! ## faithfulness -/

/-- each key gives its last blob, and the first ten of the earlier ones are under the backup names -/
def Faithful (root : String) (ops : List (Key × Blob)) (fs : FS) : Prop :=
  ∀ k ∈ ops.map Prod.fst,
    (∃ d, (datas ops k).getLast? = some d ∧ get root fs k = .ok d.bytes) ∧
    ∀ i d, i < kMaxOldVersions → (datas ops k).dropLast[i]? = some d →
      fs.file (k.backupPath (i + 1)) = some (encode d)

lemma file_of_get {fs : FS} {k : Key} {bytes : List UInt8} (h : get root fs k = .ok bytes) :
    ∃ content, fs.file k.path = some content ∧ decode (k.pathString root) content = .ok bytes := by
  unfold get at h
  split at h
  next content hc => exact ⟨content, hc, h⟩
  next => split at h <;> cases h

lemma flat_of_faithful {ops : List (Key × Blob)} {fs : FS} (hrun : putAll root [] ops = .ok fs)
    (h : Faithful root ops fs) : Flat (ops.map Prod.fst) := by
  intro k hk k' hk' hnested
  obtain ⟨ha, -, hall⟩ := blocked_putAll root ops (fun _ _ hp => by cases hp) hrun
  obtain ⟨o, ho, rfl⟩ := mem_map.mp hk
  obtain ⟨q, hq, hsome⟩ := blocked_iff.mp (hall o ho)
  obtain ⟨⟨d, -, hget⟩, -⟩ := h k' hk'
  obtain ⟨content, hfile, -⟩ := file_of_get hget
  have hqd : q <+: k'.dirs := hq.trans hnested
  have heq := ha q k'.path hsome (by rw [hfile]; rfl) (hqd.trans (prefix_append _ _))
  have hlen := hqd.length_le
  rw [heq] at hlen
  simp [Key.path] at hlen

/-- **The disk store is faithful exactly if no key's file is a directory of another key and the last
blob of each key can be told from its length**, that is, it is not empty and does not start with a
digit.  The backups are always right. -/
theorem disk_faithful_iff (root : String) (ops : List (Key × Blob)) (fs : FS)
    (hrun : putAll root [] ops = .ok fs) (hc : Unclashing (ops.map Prod.fst)) :
    Faithful root ops fs ↔ Flat (ops.map Prod.fst) ∧
      ∀ k ∈ ops.map Prod.fst, ∀ d, (datas ops k).getLast? = some d → Readable d := by
  have hstored : Flat (ops.map Prod.fst) → Stored (ops.map Prod.fst) ops fs := fun hf =>
    stored_putAll hc hf root ops [] (stored_nil _) (fun o ho => mem_map_of_mem ho) hrun
  constructor
  · intro h
    have hf := flat_of_faithful hrun h
    refine ⟨hf, fun k hk d hd => ?_⟩
    obtain ⟨⟨d', hd', hget⟩, -⟩ := h k hk
    rw [hd] at hd'
    cases hd'
    obtain ⟨content, hfile, hdec⟩ := file_of_get hget
    rw [(hstored hf).last k hk, hd, Option.map_some] at hfile
    cases hfile
    exact (decode_encode_iff _ d).mp hdec
  · rintro ⟨hf, hr⟩ k hk
    have hs := hstored hf
    refine ⟨?_, fun i d hi hd => ?_⟩
    · obtain ⟨d, hd⟩ : ∃ d, (datas ops k).getLast? = some d := by
        obtain ⟨o, ho, rfl⟩ := mem_map.mp hk
        have hmem : o.2 ∈ datas ops o.1 :=
          mem_map_of_mem (mem_filter.mpr ⟨ho, by simp⟩)
        exact ⟨_, getLast?_eq_some_getLast (ne_nil_of_mem hmem)⟩
      refine ⟨d, hd, ?_⟩
      unfold get
      rw [hs.last k hk, hd, Option.map_some]
      exact decode_encode_of_readable _ (hr k hk d hd)
    · rw [hs.old k hk i hi, hd, Option.map_some]

/-- the blob `5` is written as `15`, which reads as a length -/
theorem digit_blob_unreadable :
    (putAll "root" [] [(⟨[], "k"⟩, ⟨[53], by decide⟩)]).toOption.map (fun fs => get "root" fs ⟨[], "k"⟩)
        = some (.error "Error reading 15 bytes from 'root/k.bin'") ∧
      Unclashing [⟨[], "k"⟩] ∧ Flat [⟨[], "k"⟩] := by
  refine ⟨by decide +kernel, ?_, ?_⟩
  · unfold Unclashing
    decide +kernel
  · unfold Flat
    decide +kernel

/-- `a` twice and `b` once, under two keys -/
theorem disk_faithful_letters : ∃ fs,
    putAll "root" [] [(⟨[], "k"⟩, ⟨[97], by decide⟩), (⟨["d"], "k"⟩, ⟨[98], by decide⟩),
      (⟨[], "k"⟩, ⟨[97], by decide⟩)] = .ok fs ∧
    Faithful "root" [(⟨[], "k"⟩, ⟨[97], by decide⟩), (⟨["d"], "k"⟩, ⟨[98], by decide⟩),
      (⟨[], "k"⟩, ⟨[97], by decide⟩)] fs := by
  have hok : (putAll "root" [] [(⟨[], "k"⟩, ⟨[97], by decide⟩), (⟨["d"], "k"⟩, ⟨[98], by decide⟩),
      (⟨[], "k"⟩, ⟨[97], by decide⟩)]).toOption.isSome := by decide +kernel
  cases hrun : putAll "root" [] [(⟨[], "k"⟩, ⟨[97], by decide⟩), (⟨["d"], "k"⟩, ⟨[98], by decide⟩),
      (⟨[], "k"⟩, ⟨[97], by decide⟩)] with
  | error e =>
    rw [hrun] at hok
    cases hok
  | ok fs =>
    refine ⟨fs, rfl, (disk_faithful_iff "root" _ fs hrun ?_).mpr ⟨?_, ?_⟩⟩
    · unfold Unclashing
      decide +kernel
    · unfold Flat
      decide +kernel
    · have h : ∀ d ∈ [Blob.mk [97] (by decide), Blob.mk [98] (by decide)], Readable d := by decide
      intro k _ d hd
      refine h d ?_
      have hmem := mem_of_getLast? hd
      obtain ⟨o, ho, rfl⟩ := mem_map.mp hmem
      have ho := mem_of_mem_filter ho
      simp only [mem_cons, not_mem_nil, or_false] at ho
      rcases ho with rfl | rfl | rfl <;> decide

end TorchCraft.BlobStorage
