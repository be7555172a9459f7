/-
# Rules do not pile up

`create_rule` looks for a row with the fields of the incoming rule first, and rewrites it instead
of adding another.  Wherever a request stops, and whatever calls fail in it, the rows have different
fields afterwards (`NoDuplicates`): a row is rewritten with the fields it has, or with those of a
rule that no row has (`Fits`), and a new row has such fields too.  A rollback writes the old fields
or the new ones again, or takes the new row away.

The rows of `[System]` are left out of the comparison, so the requests here do not create any
(`Request.Plain`).
-/

import Ceasefire.Service.RuleSync
import Ceasefire.Service.TableWrites

namespace Ceasefire
namespace Service

open Lib.Prog RuleManager

variable {env : Env} {w w' : World} {t t' : RuleTable} {id : U32} {rule : Rule}

/-! ## Tables without duplicates -/

/-- The rows are rules of the user, and no two have the same fields. -/
structure NoDuplicates (t : RuleTable) : Prop where
  user : ∀ row ∈ t.rows, isSystemRule row = false
  distinct : t.rows.Pairwise fun a b => sameEffectiveFields a b = false

/-- A rule may stand in the row of this id: it is no `[System]` rule, and no other row has its
fields. -/
structure Fits (t : RuleTable) (id : U32) (rule : Rule) : Prop where
  user : isSystemRule rule = false
  fields : ∀ row ∈ t.rows, row.id ≠ some id → sameEffectiveFields row rule = false

theorem sameEffectiveFields_comm (a b : Rule) :
    sameEffectiveFields a b = sameEffectiveFields b a := by
  simp only [sameEffectiveFields, eq_comm]

theorem sameEffectiveFields_self (a : Rule) : sameEffectiveFields a a = true := by
  simp [sameEffectiveFields]

/-- Rules with the same fields are the same to a comparison. -/
theorem sameEffectiveFields_congr {a b : Rule} (h : sameEffectiveFields a b = true) (row : Rule) :
    sameEffectiveFields row a = sameEffectiveFields row b := by
  simp only [sameEffectiveFields, decide_eq_true_eq] at h
  obtain ⟨h₁, h₂, h₃, h₄, h₅, h₆, h₇, h₈, h₉, h₁₀, h₁₁, h₁₂, h₁₃⟩ := h
  simp only [sameEffectiveFields, h₁, h₂, h₃, h₄, h₅, h₆, h₇, h₈, h₉, h₁₀, h₁₁, h₁₂, h₁₃]

namespace NoDuplicates

/-- Two rows that are two have different fields. -/
theorem ne_fields (h : NoDuplicates t) {a b : Rule} (ha : a ∈ t.rows) (hb : b ∈ t.rows)
    (hid : a.id ≠ b.id) : sameEffectiveFields a b = false := by
  have hsymm : Std.Symm fun a b : Rule => sameEffectiveFields a b = false :=
    ⟨fun a b hab => (sameEffectiveFields_comm b a).trans hab⟩
  exact h.distinct.forall ha hb fun heq => hid (heq ▸ rfl)

/-- **A rewritten row** may have the fields that fit. -/
theorem update (h : NoDuplicates t) (hfits : Fits t id rule) (now : String) :
    NoDuplicates (t.update id now rule) := by
  constructor
  · intro row hrow
    rcases (Lib.mem_modifyKey t.nodup).1 hrow with ⟨hrow, -⟩ | ⟨old, -, -, rfl⟩
    · exact h.user row hrow
    · exact hfits.user
  · rw [RuleTable.update_rows, List.pairwise_map]
    have hids : t.rows.Pairwise fun a b => a.id ≠ b.id := List.pairwise_map.1 t.nodup
    refine (h.distinct.and hids).imp_of_mem fun {a b} ha hb ⟨hab, hne⟩ => ?_
    split_ifs with hida hidb hidb
    · exact absurd (hida.trans hidb.symm) hne
    · -- the rewritten row before another
      exact (sameEffectiveFields_comm rule b).trans (hfits.fields b hb hidb)
    · exact hfits.fields a ha hida
    · exact hab

theorem delete (h : NoDuplicates t) (id : U32) : NoDuplicates (t.delete id) := by
  constructor
  · exact fun row hrow => h.user row (List.mem_of_mem_eraseP hrow)
  · exact h.distinct.sublist List.eraseP_sublist

theorem insert (h : NoDuplicates t) {now : String} (huser : isSystemRule rule = false)
    (hnew : ∀ row ∈ t.rows, sameEffectiveFields row rule = false)
    (hinsert : t.insert now rule = some (id, t')) : NoDuplicates t' := by
  unfold RuleTable.insert at hinsert
  split_ifs at hinsert
  obtain ⟨rfl, rfl⟩ := Prod.mk.inj (Option.some.inj hinsert)
  constructor
  · intro row hrow
    rcases List.mem_append.1 hrow with hrow | hrow
    · exact h.user row hrow
    · rw [List.mem_singleton.1 hrow]
      exact huser
  · refine List.pairwise_append.2 ⟨h.distinct, List.pairwise_singleton .., ?_⟩
    intro row hrow row' hrow'
    rw [List.mem_singleton.1 hrow']
    exact hnew row hrow

/-- What has the fields of its row fits. -/
theorem fits (h : NoDuplicates t) {old : Rule} (hold : t.get id = some old)
    (huser : isSystemRule rule = false) (hsame : sameEffectiveFields old rule = true) :
    Fits t id rule := by
  obtain ⟨hmem, hid⟩ := RuleTable.get_eq_some.1 hold
  refine ⟨huser, fun row hrow hother => ?_⟩
  rw [← sameEffectiveFields_congr hsame]
  exact h.ne_fields hrow hmem (hid ▸ hother)

end NoDuplicates

/-- No duplicates come up. -/
def StaysDistinct (w w' : World) : Prop := NoDuplicates w.table → NoDuplicates w'.table

instance : Std.Refl StaysDistinct where
  refl _ h := h

instance : IsTrans World StaysDistinct where
  trans _ _ _ h h' hw := h' (h hw)

theorem StaysDistinct.of_eq (h : w'.table = w.table) : StaysDistinct w w' := fun hw => h ▸ hw

theorem distinct_of_frame {α : Type} {m : ServiceM α} (h : m.Goes SameTable w) :
    m.Goes StaysDistinct w :=
  h.mono fun _ hsame => .of_eq hsame.table

namespace RuleManager

/-! ## Flags -/

/-- **A flag is written, and perhaps rolled back:** the row is the new one, or that of the
rollback, or nothing has happened. -/
theorem table_writeFlag {new back : Rule} {p : Prop} [Decidable p] {m n : ServiceM Unit}
    (hm : ∀ w, m.Goes SameTable w) (hn : ∀ w, n.Goes SameTable w) :
    (do
      Database.updateRule env id new
      if p then m else n.onError fun _ => Database.updateRule env id back : ServiceM Unit).Goes
        (fun w w' => w'.table = w.table ∨ ∃ now row, (row = new ∨ row = back) ∧
          w'.table = w.table.update id now row) w := by
  rw [Goes]
  generalize hstate : ((Database.updateRule env id new >>= _) w).state = w'
  have h := ends_self (Database.updateRule env id new >>= fun _ =>
    if p then m else n.onError fun _ => Database.updateRule env id back) w
  rw [hstate] at h
  rcases ends_bind.1 h with ⟨u, w₁, hupdate, h⟩ | ⟨e, -, hupdate⟩
  · rcases ends_update hupdate with ⟨-, e, herror⟩ | ⟨now, htable, -⟩
    · cases herror
    refine .inr ?_
    split_ifs at h with hp
    · have hframe := hm w₁
      rw [Goes, h.2] at hframe
      exact ⟨now, new, .inl rfl, hframe.table.trans htable⟩
    · have hrollback : ((n.onError fun _ => Database.updateRule env id back) w₁).state.table =
          w₁.table ∨ ∃ now, ((n.onError fun _ => Database.updateRule env id back) w₁).state.table =
            w₁.table.update id now back := table_onError (hn w₁) back
      rcases hrollback with hsame | ⟨now', hrolled⟩
      · rw [h.2] at hsame
        exact ⟨now, new, .inl rfl, hsame.trans htable⟩
      · rw [h.2] at hrolled
        refine ⟨now', back, .inr rfl, hrolled.trans ?_⟩
        rw [htable]
        exact RuleTable.eq_of_rows (RuleTable.update_update ..) rfl
  · rcases ends_update hupdate with ⟨htable, -⟩ | ⟨now, -, hok⟩
    · exact .inl htable
    · cases hok

theorem distinct_writeFlag {new back : Rule} {p : Prop} [Decidable p] {m n : ServiceM Unit}
    (hm : ∀ w, m.Goes SameTable w) (hn : ∀ w, n.Goes SameTable w)
    (hnew : NoDuplicates w.table → Fits w.table id new)
    (hback : NoDuplicates w.table → Fits w.table id back) :
    (do
      Database.updateRule env id new
      if p then m else n.onError fun _ => Database.updateRule env id back : ServiceM Unit).Goes
        StaysDistinct w := by
  refine (table_writeFlag hm hn).mono fun w' htable hw => ?_
  rcases htable with htable | ⟨now, row, rfl | rfl, htable⟩
  · rw [htable]
    exact hw
  · rw [htable]
    exact hw.update (hnew hw) now
  · rw [htable]
    exact hw.update (hback hw) now

/-- A row with another flag fits. -/
theorem fits_flag (h : NoDuplicates t) (hold : t.get id = some rule) (enabled : Bool) :
    Fits t id { rule with enabled := enabled } :=
  h.fits hold (h.user rule (RuleTable.get_eq_some.1 hold).1) (sameEffectiveFields_self rule)

/-- The row of an id is read first. -/
theorem distinct_found {β : Type} {f : Rule → ServiceM β}
    (hf : ∀ rule w', w'.table = w.table → w.table.get id = some rule →
      (f rule).Goes StaysDistinct w') :
    (do
      let row ← Database.getRule env id
      let rule ← found id row
      f rule : ServiceM β).Goes StaysDistinct w := by
  refine (distinct_of_frame (frame_read _)).bind fun row hget => ?_
  obtain ⟨hstate, hrow⟩ := ends_read hget
  obtain rfl := hrow _ rfl
  rw [hstate]
  refine (goes_lift _).bind fun rule hfound => ?_
  obtain ⟨hfound, hsame⟩ := ends_lift.1 hfound
  rw [hsame]
  exact hf rule _ rfl (okOr_ok.1 hfound.symm)

theorem distinct_enableRule : (enableRule env id).Goes StaysDistinct w := by
  refine distinct_found fun rule w₁ htable hold => goes_ite (fun _ => goes_pure _) fun _ => ?_
  refine distinct_writeFlag (fun _ => goes_pure _) (fun _ => frame_push _) ?_ ?_
  all_goals
    rw [htable]
    exact fun hw => fits_flag hw hold _

theorem distinct_disableRule : (disableRule env id).Goes StaysDistinct w := by
  refine distinct_found fun rule w₁ htable hold => goes_ite (fun _ => goes_pure _) fun _ => ?_
  refine distinct_writeFlag (fun _ => DomainRuleEngine.frame_revokeRule id)
    (fun _ => goes_ite (fun _ => frame_reloadRulesToDriver) fun _ => frame_driverCall _) ?_ ?_
  all_goals
    rw [htable]
    exact fun hw => fits_flag hw hold _

/-! ## Deletion and creation -/

theorem distinct_deleteRule : (deleteRule env id).Goes StaysDistinct w := by
  refine (distinct_of_frame (frame_read _)).bind fun row _ => (goes_lift _).bind fun u _ => ?_
  intro hw
  rcases table_deleteRuleInternal (ends_self (deleteRuleInternal env id) _) with
    ⟨htable, -⟩ | htable
  · rw [htable]
    exact hw
  · rw [htable]
    exact hw.delete id

/-- **An update with fields that fit.** -/
theorem distinct_updateRule (hfits : NoDuplicates w.table → Fits w.table id rule) :
    (updateRule env id rule).Goes StaysDistinct w := by
  refine distinct_found fun old w₁ hsame hold => (goes_lift _).bind fun u hguard => ?_
  rw [(ends_lift.1 hguard).2]
  intro hw
  have hfits := hfits (hsame ▸ hw)
  rw [← hsame] at hfits hold
  rcases table_updateRuleInternal env w₁ id rule with
    htable | ⟨-, old', now, new, hget, hnew, htable⟩
  · rw [htable]
    exact hw
  · rw [htable]
    refine hw.update ?_ now
    obtain rfl : old = old' := Option.some.inj (hold.symm.trans hget)
    rcases hnew with rfl | hnew | rfl
    · exact hfits
    · rw [hnew]
      exact ⟨hfits.user, hfits.fields⟩
    · have hold := hw.fits hget (hw.user _ (RuleTable.get_eq_some.1 hget).1)
        (sameEffectiveFields_self old)
      exact ⟨hold.user, hold.fields⟩

theorem distinct_insertRule (huser : isSystemRule rule = false)
    (hnew : ∀ row ∈ w.table.rows, sameEffectiveFields row rule = false) :
    (insertRule env rule).Goes StaysDistinct w := by
  intro hw
  rcases table_insertRule env w rule with hsame | ⟨now, priority, id, t, hinsert, htable⟩
  · rw [hsame]
    exact hw
  · have huser' : isSystemRule { rule with priority := priority } = false := huser
    have ht := hw.insert huser' hnew hinsert
    rcases htable with htable | htable
    · rw [htable]
      exact ht
    · rw [htable]
      exact ht.delete id

/-- **A merged row fits:** it keeps the fields of its row, or no row has those of the incoming
rule. -/
theorem fits_mergeTarget {platform : Platform} {merged : Rule} (h : NoDuplicates t)
    (huser : isSystemRule rule = false)
    (hmerged : mergeTarget platform (t.list.filter fun r => !isSystemRule r) rule = some merged) :
    Fits t (merged.id.getD 0) merged := by
  -- the rows compared are all rows
  have hall : t.list.filter (fun r => !isSystemRule r) = t.list := by
    refine List.filter_eq_self.2 fun row hrow => ?_
    rw [h.user row (RuleTable.mem_list.1 hrow)]
    rfl
  rw [hall] at hmerged
  have hrow : ∀ {row : Rule}, row ∈ t.list → t.get (row.id.getD 0) = some row := by
    intro row hmem
    obtain ⟨id, hid, -⟩ := t.stored row (RuleTable.mem_list.1 hmem)
    rw [hid]
    exact RuleTable.get_eq_some.2 ⟨RuleTable.mem_list.1 hmem, hid⟩
  unfold mergeTarget at hmerged
  split at hmerged
  · rename_i dup hfind
    have hold := hrow (List.mem_of_find?_eq_some hfind)
    obtain rfl := Option.some.inj hmerged
    exact h.fits hold huser (sameEffectiveFields_self dup)
  · rename_i hnone
    have hnew : ∀ row ∈ t.rows, sameEffectiveFields row rule = false := fun row hmem =>
      Bool.eq_false_iff.2 (List.find?_eq_none.1 hnone row (RuleTable.mem_list.2 hmem))
    split at hmerged
    · obtain rfl := Option.some.inj hmerged
      exact ⟨huser, fun row hmem _ => hnew row hmem⟩
    · split at hmerged
      · rename_i a hfind
        have hold := hrow (List.mem_of_find?_eq_some hfind)
        obtain rfl := Option.some.inj hmerged
        exact h.fits hold huser (sameEffectiveFields_self a)
      · nomatch hmerged

/-- Without a merge no row has the fields. -/
theorem fields_of_mergeTarget {platform : Platform} (h : NoDuplicates t)
    (hnone : mergeTarget platform (t.list.filter fun r => !isSystemRule r) rule = none) :
    ∀ row ∈ t.rows, sameEffectiveFields row rule = false := by
  intro row hmem
  unfold mergeTarget at hnone
  split at hnone
  · nomatch hnone
  · rename_i hfind
    refine Bool.eq_false_iff.2 (List.find?_eq_none.1 hfind row ?_)
    exact List.mem_filter.2 ⟨RuleTable.mem_list.2 hmem, by rw [h.user row hmem]; rfl⟩

/-- **A creation** keeps the rows apart. -/
theorem distinct_createRule (huser : isSystemRule rule = false) :
    (createRule env rule).Goes StaysDistinct w := by
  intro hw
  suffices h : (createRule env rule).Goes StaysDistinct w from h hw
  refine (goes_lift _).bind fun u hvalid => ?_
  rw [(ends_lift.1 hvalid).2]
  refine goes_ite (fun hsystem => ?_) fun _ => ?_
  · nomatch huser.symm.trans hsystem
  refine (distinct_of_frame (frame_read _)).bind fun rules hlist => ?_
  obtain ⟨hstate, hrules⟩ := ends_read hlist
  obtain rfl := hrules _ rfl
  rw [hstate]
  split
  · rename_i merged hmerged
    refine Goes.bind (distinct_updateRule fun _ => ?_) fun _ _ => goes_pure _
    exact fits_mergeTarget hw huser hmerged
  · rename_i hnone
    exact distinct_insertRule huser (fields_of_mergeTarget hw hnone)

end RuleManager

/-! ## Runs -/

/-- The requests of the property: a rule of the user is created, or a rule is deleted, enabled or
disabled. -/
def Request.Plain : Request → Prop
  | .create rule => isSystemRule rule = false
  | .update _ _ => False
  | .delete _ => True
  | .enable _ => True
  | .disable _ => True

/-- A request, whatever it answers. -/
def answered (env : Env) (w : World) (request : Request) : World := (request.handle env w).state

theorem noDuplicates_answered {request : Request} (hplain : request.Plain)
    (h : NoDuplicates w.table) : NoDuplicates (answered env w request).table := by
  cases request with
  | create rule =>
      have hgoes : (Request.handle env (.create rule)).Goes StaysDistinct w :=
        (distinct_createRule hplain).bind fun _ _ => goes_pure _
      exact hgoes h
  | update id rule => exact hplain.elim
  | enable id => exact distinct_enableRule h
  | disable id => exact distinct_disableRule h
  | delete id => exact distinct_deleteRule h

/-- **No two rules have the same fields,** after any sequence of such requests from an empty table
and whatever calls of the database and the driver fail in them. -/
theorem noDuplicates_of_run (env : Env) (w : World) (requests : List Request)
    (hempty : w.table.rows = []) (hplain : ∀ request ∈ requests, request.Plain) :
    (requests.foldl (answered env) w).table.rows.Pairwise
      fun a b => sameEffectiveFields a b = false := by
  have hinit : NoDuplicates w.table := by
    constructor
    · rw [hempty]
      exact fun _ hrow => absurd hrow List.not_mem_nil
    · rw [hempty]
      exact .nil
  suffices h : NoDuplicates (requests.foldl (answered env) w).table from h.distinct
  clear hempty
  induction requests generalizing w with
  | nil => exact hinit
  | cons request requests ih =>
      refine ih _ (fun r hr => hplain r (List.mem_cons_of_mem _ hr)) ?_
      exact noDuplicates_answered (hplain request (List.mem_cons_self ..)) hinit

/-- A rule, the same rule with the other action while the driver fails, and a request to disable
it: one row is there. -/
theorem noDuplicates_of_block_allow :
    let env := { quietEnv with driverFault := fun n => 2 < n }
    let requests := [.create baseRule, .create { baseRule with action := .allow }, .disable 1]
    let w := requests.foldl (answered env) emptyWorld
    w.table.rows.length = 1 ∧
      w.table.rows.Pairwise fun a b => sameEffectiveFields a b = false := by
  intro env requests w
  have hplain : ∀ request ∈ requests, request.Plain := by
    simp only [requests, List.mem_cons, List.not_mem_nil, or_false, forall_eq_or_imp, forall_eq]
    have huser : isSystemRule baseRule = false := by decide +kernel
    exact ⟨huser, huser, trivial⟩
  have hempty : emptyWorld.table.rows = [] := rfl
  have hdistinct := noDuplicates_of_run env emptyWorld requests hempty hplain
  refine ⟨by decide +kernel, ?_⟩
  dsimp only [w]
  exact hdistinct

end Service
end Ceasefire
