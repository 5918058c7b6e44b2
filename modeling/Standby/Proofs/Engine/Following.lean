import Mathlib.Data.List.TakeWhile
import Standby.Proofs.Engine.Serving
import Standby.Proofs.Http.Routes
import Standby.Proofs.Listing.Paging
/-!
# Following a link

A link to the next page is followed by sending the same request to another target: to what the link has behind the URL
with which links begin, if that is not too long for a target. Such a request passes the gates that the first one has
passed, and leads to the same resource.
-/

namespace Standby

/-! ## Targets -/

namespace Target

/-- A path that a target can begin with. -/
structure IsPath (path : String) : Prop where
  slash : path.toList.head? = some '/'
  chars : path.toList.all isPathChar = true

theorem isPath_slash : IsPath "/" := ⟨rfl, rfl⟩

/-- What is read as a path is one, even if nothing stands for it. -/
theorem isPath_of_ofPath? {cs : List Char} {t : Target} (h : ofPath? cs = some t)
    (hhead : ∀ c, cs.head? = some c → c = '/' ∨ c = '?' ∨ c = '#') : IsPath t.path := by
  have htaken : IsPath (if (cs.takeWhile fun c => c ≠ '?' && c ≠ '#').isEmpty then "/"
      else String.ofList (cs.takeWhile fun c => c ≠ '?' && c ≠ '#')) := by
    unfold ofPath? at h
    simp only at h
    split at h
    · cases h
    · rename_i hall
      cases cs with
      | nil => exact isPath_slash
      | cons c cs =>
        rcases hhead c rfl with rfl | rfl | rfl
        · rw [List.takeWhile_cons_of_pos (by decide)] at hall ⊢
          exact ⟨by simp, by simpa using hall⟩
        · rw [List.takeWhile_cons_of_neg (by decide)]
          exact isPath_slash
        · rw [List.takeWhile_cons_of_neg (by decide)]
          exact isPath_slash
  unfold ofPath? at h
  simp only at h
  split at h
  · cases h
  · split at h
    · split at h
      · cases h
        exact htaken
      · cases h
    · cases h
      exact htaken

/-- A target has a path, or it is an asterisk or an authority alone. -/
theorem isPath_of_ofText? {s : String} {t : Target} (h : ofText? s = some t) :
    IsPath t.path ∨ t.path = "*" ∨ t.path = "" := by
  unfold ofText? at h
  split at h
  · cases h
  · split at h
    · cases h
      exact .inr (.inl rfl)
    · exact .inl (isPath_of_ofPath? h fun c hc => .inl (Option.some.inj hc).symm)
    · split at h
      · rename_i rest _
        simp only at h
        split at h
        · refine .inl (isPath_of_ofPath? h fun c hc => ?_)
          have hrest : rest.drop (rest.takeWhile fun c => c ≠ '/' && c ≠ '?' && c ≠ '#').length =
              rest.dropWhile fun c => c ≠ '/' && c ≠ '?' && c ≠ '#' :=
            (congrArg (List.drop _) List.takeWhile_append_dropWhile.symm).trans List.drop_left
          have hstop := List.head?_dropWhile_not (fun c => c ≠ '/' && c ≠ '?' && c ≠ '#') rest
          rw [← hrest, hc] at hstop
          simpa [Classical.or_iff_not_imp_left, and_imp] using hstop
        · cases h
      · split at h
        · cases h
          exact .inr (.inr rfl)
        · cases h

/-- A path and a query after a question mark are read as what they are, if they are not too long. -/
theorem ofText?_append {path query : String} (hpath : IsPath path) (hquery : query.toList.all isQueryChar = true)
    (hsize : Text.Utf8.size (path ++ "?" ++ query) ≤ maxSize) :
    ofText? (path ++ "?" ++ query) = some ⟨path, some query⟩ := by
  obtain ⟨cs, hcs⟩ := List.head?_eq_some_iff.1 hpath.slash
  have htext : (path ++ "?" ++ query).toList = '/' :: (cs ++ '?' :: query.toList) := by
    simp [String.toList_append, hcs]
  have htaken : ('/' :: (cs ++ '?' :: query.toList)).takeWhile (fun c => c ≠ '?' && c ≠ '#') = path.toList := by
    rw [← List.cons_append, ← hcs, List.takeWhile_append_of_pos]
    · simp
    · intro c hc
      have hchar := List.all_eq_true.1 hpath.chars c hc
      simp only [ne_eq, decide_not, Bool.and_eq_true, Bool.not_eq_eq_eq_not, Bool.not_true, decide_eq_false_iff_not]
      exact ⟨fun h => absurd (h ▸ hchar) (by decide), fun h => absurd (h ▸ hchar) (by decide)⟩
  have hkept : query.toList.takeWhile (· ≠ '#') = query.toList := by
    refine List.takeWhile_eq_self_iff.2 fun c hc => ?_
    exact decide_eq_true fun h => absurd (h ▸ List.all_eq_true.1 hquery c hc) (by decide)
  have hrest : ('/' :: (cs ++ '?' :: query.toList)).drop path.toList.length = '?' :: query.toList := by
    rw [← List.cons_append, ← hcs, List.drop_left']
    rfl
  have hnonempty : path.toList.isEmpty = false := by rw [hcs]; rfl
  rw [ofText?, if_neg (Nat.not_lt.2 hsize), htext]
  simp only [ofPath?, htaken, hpath.chars, hrest, hkept, hquery, hnonempty, String.ofList_toList]
  rfl

theorem isQueryChar_of_isPlain {c : Char} (h : Text.Form.isPlain c = true) : isQueryChar c = true := by
  have hbetween : ∀ lo hi : UInt32, lo ≤ c.val → c.val ≤ hi → lo.toNat ≤ c.toNat ∧ c.toNat ≤ hi.toNat :=
    fun _ _ hlo hhi => ⟨UInt32.le_iff_toNat_le.1 hlo, UInt32.le_iff_toNat_le.1 hhi⟩
  have hrange : (0x24 ≤ c.toNat ∧ c.toNat ≤ 0x3B) ∨ (0x3F ≤ c.toNat ∧ c.toNat ≤ 0x7E) := by
    simp only [Text.Form.isPlain, Bool.or_eq_true, beq_iff_eq] at h
    rcases h with (((h | rfl) | rfl) | rfl) | rfl
    · rcases Bool.or_eq_true_iff.1 h with h | h
      · -- A letter, upper or lower case.
        rcases Bool.or_eq_true_iff.1 h with h | h
        · obtain ⟨hlo, hhi⟩ := hbetween 65 90 (of_decide_eq_true h).1 (of_decide_eq_true h).2
          exact .inr ⟨Nat.le_trans (by decide) hlo, Nat.le_trans hhi (by decide)⟩
        · obtain ⟨hlo, hhi⟩ := Bool.and_eq_true_iff.1 h
          obtain ⟨hlo, hhi⟩ := hbetween 97 122 (of_decide_eq_true hlo) (of_decide_eq_true hhi)
          exact .inr ⟨Nat.le_trans (by decide) hlo, Nat.le_trans hhi (by decide)⟩
      · obtain ⟨hlo, hhi⟩ := Bool.and_eq_true_iff.1 h
        obtain ⟨hlo, hhi⟩ := hbetween 48 57 (of_decide_eq_true hlo) (of_decide_eq_true hhi)
        exact .inl ⟨Nat.le_trans (by decide) hlo, Nat.le_trans hhi (by decide)⟩
    all_goals decide
  simp only [isQueryChar, Bool.or_eq_true, Bool.and_eq_true, decide_eq_true_eq]
  omega

/-- Pairs are written in characters that a query may have. -/
theorem all_isQueryChar_encodePairs (l : List (String × String)) :
    (Text.Form.encodePairs l).toList.all isQueryChar = true := by
  refine List.all_eq_true.2 fun c hc => ?_
  rcases Text.Form.mem_encodePairs hc with h | rfl | rfl | rfl | rfl
  · exact isQueryChar_of_isPlain h
  all_goals decide

end Target

theorem Router.isPath_path {r : Router} {raw : String} {route : Route} (h : r.route? raw = some route)
    (hraw : Target.IsPath raw) : Target.IsPath route.path := by
  unfold route? at h
  cases hsuffix : Text.before? ".json" raw with
  | none =>
    simp only [hsuffix] at h
    obtain ⟨place, -, rfl⟩ := Option.map_eq_some_iff.1 h
    exact hraw
  | some path =>
    simp only [hsuffix] at h
    obtain ⟨place, -, rfl⟩ := Option.map_eq_some_iff.1 h
    obtain ⟨hslash, hchars⟩ := hraw
    rw [before?_eq_some hsuffix] at hslash hchars
    rw [List.all_append, Bool.and_eq_true] at hchars
    refine ⟨?_, hchars.1⟩
    cases hpath : path.toList with
    | nil => rw [hpath] at hslash; cases hslash
    | cons c cs => rw [hpath] at hslash; exact hslash

/-! ## Links -/

namespace Request

theorem ofParts?_eq_some {method uri : String} {headers : List (String × String)} {body : List UInt8}
    {req : Request} (h : ofParts? method uri headers body = some req) :
    ∃ target, Target.ofText? uri = some target ∧ req.method = method ∧ req.path = target.path ∧
      req.query = target.query := by
  obtain ⟨target, htarget, h⟩ := Option.bind_eq_some_iff.1 h
  split at h
  · cases h
  · split at h
    · cases h
      exact ⟨target, htarget, rfl, rfl, rfl⟩
    · cases h

/-- What is sent to one target can be sent to another. -/
theorem ofParts?_of_ofText? {method uri uri' : String} {headers : List (String × String)} {body : List UInt8}
    {req : Request} {target : Target} (h : ofParts? method uri headers body = some req)
    (htarget : Target.ofText? uri' = some target) :
    ofParts? method uri' headers body = some { req with path := target.path, query := target.query } := by
  unfold ofParts? at h ⊢
  obtain ⟨first, -, h⟩ := Option.bind_eq_some_iff.1 h
  rw [htarget, Option.bind_eq_bind, Option.bind_some]
  split at h
  · cases h
  · next hmethod =>
    split at h
    · next hheaders =>
      cases h
      rw [if_neg hmethod, if_pos hheaders]
    · cases h

/-- Nothing can be sent to a target that is too long. -/
theorem ofParts?_eq_none {uri : String} (h : Target.maxSize < Text.Utf8.size uri) (method : String)
    (headers : List (String × String)) (body : List UInt8) : ofParts? method uri headers body = none := by
  rw [ofParts?, Target.ofText?, if_pos h]
  rfl

theorem after?_append (a b : String) : Text.after? a (a ++ b) = some b := by
  have hstarts : a.toList.isPrefixOf (a ++ b).toList = true := by
    rw [String.toList_append, List.isPrefixOf_iff_prefix]
    exact List.prefix_append _ _
  rw [Text.after?, if_pos hstarts, String.toList_append, ← String.length_toList, List.drop_left', String.ofList_toList]
  rfl

end Request

namespace Dispatcher

variable {σ κ : Type} {d : Dispatcher σ κ} {req : Request}

/-! ## Admission of what links lead to -/

/-- The request for another query of the same place is admitted as the first one was. -/
theorem Admitted.exists_follow (a : Admitted d req)
    (hroute : d.router.route? a.route.path = some { a.route with suffix := none }) (query : String) :
    ∃ a' : Admitted d { req with path := a.route.path, query := some query },
      a'.route = { a.route with suffix := none } ∧ a'.entry = a.entry ∧ a'.version = a.version ∧
        a'.handlers = a.handlers ∧
        ∃ type, a'.ctx = { a.ctx with responseType := type, query := Text.Form.decodePairs query } := by
  obtain ⟨htype, body, action, hbody, haction, hhandlers, hproject, hctx⟩ := contextOf_eq_ok_iff.1 a.admitted
  have hlocated : d.locate { req with path := a.route.path, query := some query } =
      .ok ({ a.route with suffix := none }, a.entry) := by
    simp only [locate, hroute, a.lookup?_entry]
  have hadmitted : d.contextOf { a.route with suffix := none } a.entry a.version
      { req with path := a.route.path, query := some query } =
        .ok (d.contextAt { a.route with suffix := none } a.version
          { req with path := a.route.path, query := some query } action body, a.handlers) :=
    contextOf_eq_ok_iff.2 ⟨htype, body, action, hbody, haction, hhandlers, hproject, rfl⟩
  exact ⟨⟨_, a.entry, a.version, _, a.handlers, hlocated, a.versioned, hadmitted⟩, rfl, rfl, rfl, rfl, _,
    by rw [hctx]; rfl⟩

end Dispatcher

end Standby
