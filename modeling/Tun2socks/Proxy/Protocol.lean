import Tun2socks.Go.Basic
import Tun2socks.Go.Published

/-!
# Tun2socks.Proxy.Protocol

Model of `proxy/protocol.go`: the protocols that the packages of the proxies register, and the
choice of one of them by the scheme of a URL.

The list is kept like the options of the dialer (`Go.Published`); it is never reset.
-/

namespace Tun2socks.Proxy

open Tun2socks.Go

/-- A `protocol`, for URLs `υ` and proxies `π`. -/
structure Protocol (υ π : Type) where
  name : String
  /-- `none` for `nil` -/
  parse : Option (υ → Except Error π)

/-- `ErrProtocol`. -/
def errProtocol : Error := .new "proxy: unknown protocol"

section

variable {υ π : Type}

/-- `protocol{}`. -/
instance : Inhabited (Protocol υ π) := ⟨⟨"", none⟩⟩

/-- `pick(name)`. -/
def pick (υ π : Type) : Walk String (Protocol υ π) Unit (Protocol υ π) where
  skip _ := none
  visit name p _ := if p.name = name then some p else none
  finish _ := default

/-- `Parse(proxyURL)`, once the protocol is picked. -/
def Protocol.run (p : Protocol υ π) (proxyURL : υ) : Except Error π :=
  match p.parse with
  | none => .error errProtocol
  | some parse => parse proxyURL

/-- `pick` finds the first protocol of the name. -/
theorem pick_eq_find {name : String} {seen : List (Protocol υ π)}
    {visited : List (Protocol υ π × Unit)} {p : Protocol υ π}
    (h : (pick υ π).Result name seen visited p) :
    p = (seen.find? (·.name = name)).getD default := by
  have hpassed : ∀ {visited : List (Protocol υ π × Unit)}, (pick υ π).Passes name visited →
      (visited.map (·.1)).find? (·.name = name) = none := by
    intro visited hpass
    rw [List.find?_eq_none]
    intro q hq
    obtain ⟨v, hv, rfl⟩ := List.mem_map.mp hq
    simpa [pick] using hpass.2 v hv
  cases h with
  | skipped hskip => cases hskip
  | stopped hpass hvisit hseen =>
    obtain ⟨rest, rfl⟩ := hseen
    obtain ⟨hname, hp⟩ := Option.ite_none_right_eq_some.mp hvisit
    obtain rfl := Option.some.inj hp
    rw [List.append_assoc, List.find?_append, hpassed hpass]
    simp [hname]
  | finished hpass hseen =>
    rw [← hseen, hpassed hpass]
    rfl

end

/-- **A scheme keeps its meaning.** Whichever goroutines register protocols and parse URLs:
`Parse` fails with `ErrProtocol` unless a protocol of that name was registered when it looked, and
otherwise takes the one that was registered first, which no later registration replaces. -/
theorem scheme_settled {κ υ π : Type} [DecidableEq κ]
    (acts : List (Published.Action κ String (Protocol υ π) Unit))
    (hreset : ∀ k, Published.Action.call k .reset ∉ acts) :
    let s := Published.State.run (pick υ π) .start acts
    ∀ k name seen visited p, s.pc k = .returned name seen visited p →
      match seen.find? (·.name = name) with
      | none => ∀ proxyURL, p.run proxyURL = .error errProtocol
      | some q => p = q ∧ s.stored.find? (·.name = name) = some p := by
  intro s k name seen visited p hk
  have hresult := (Published.State.inv_run (pick υ π) acts).walked k
  have hgrows : Published.State.Grows s.stored (s.pc k) :=
    Published.State.grows_run (pick υ π) hreset k
  rw [hk] at hresult hgrows
  have hp := pick_eq_find hresult
  cases hfind : seen.find? (·.name = name) with
  | none =>
    rw [hfind] at hp
    subst hp
    intro proxyURL
    rfl
  | some q =>
    rw [hfind] at hp
    obtain ⟨rest, hrest⟩ := hgrows
    refine ⟨hp, ?_⟩
    rw [← hrest, List.find?_append, hfind, hp]
    rfl

/-- Two protocols of one name, registered one after the other. -/
theorem scheme_settled_two :
    let p : Protocol Unit Nat := ⟨"ssh", some fun _ => .ok 1⟩
    let q : Protocol Unit Nat := ⟨"ssh", some fun _ => .ok 2⟩
    let next : Published.Action Unit String (Protocol Unit Nat) Unit := .next () 1 ()
    let acts := [.call () (.register p), next, next, next, next, next, .call () (.register q), next,
      next, next, next, next, .call () (.walk "ssh"), next, next]
    let s := Published.State.run (pick Unit Nat) .start acts
    s.pc () = .returned "ssh" [p, q] [(p, ())] p ∧ s.stored.find? (·.name = "ssh") = some p := by
  intro p q next acts s
  have hk : s.pc () = .returned "ssh" [p, q] [(p, ())] p := by
    simp [s, acts, next, Published.State.run, Published.State.step, Published.State.next,
      Published.State.start, Published.State.lock, Published.State.move, Published.Op.entry,
      Published.State.round, SliceHeader.append, SliceHeader.contents, SliceHeader.cells,
      SliceHeader.nil, pick, p]
  have hfind : [p, q].find? (·.name = "ssh") = some p := by simp [p]
  have h := scheme_settled acts (by simp [acts, next]) () _ _ _ _ hk
  rw [hfind] at h
  exact ⟨hk, h.2⟩

end Tun2socks.Proxy
