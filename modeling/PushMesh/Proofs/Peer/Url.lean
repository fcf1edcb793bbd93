import PushMesh.Peer.Call
import PushMesh.Proofs.Node

/-!
# Where peers are called

A node is called under its endpoint just if its address is plain (`lowered_url_eq_iff`): there are no blanks
around it, something follows the scheme, and without a scheme there are no slashes at the end (`Plain`). Any
other address is called somewhere else, although its endpoint may be the same. So it makes no difference
which alias of a node is kept, as long as all of them are plain (`called_alike`).
-/

namespace PushMesh

open Node (schemes withoutScheme)

namespace Peer

variable {address : String} {p rest : List Char}

/-- An address names a scheme if it starts with one. -/
theorem hasScheme_iff : hasScheme address = true ↔ ∃ p ∈ schemes, p <+: address.toList := by
  simp [hasScheme, schemes, Text.isSome_afterPrefix?_iff]

/-- The scheme under which an address is called. -/
def schemeOf (address : String) : String :=
  if "https://".toList <+: address.toList then "https://" else "http://"

/-- A scheme in front of an address is its scheme. -/
theorem schemeOf_of_prefix (hp : p ∈ schemes) (haddress : address.toList = p ++ rest) :
    (schemeOf address).toList = p := by
  have hprefix : p <+: address.toList := haddress ▸ List.prefix_append p rest
  rw [schemeOf]
  split
  · next hhttps =>
    rw [haddress] at hhttps
    exact Node.eq_of_scheme_prefix (by decide) hp hhttps
  · next hhttps =>
    simp only [schemes, List.mem_cons, List.not_mem_nil, or_false] at hp
    rcases hp with rfl | rfl
    · rfl
    · exact absurd hprefix hhttps

/-- An address without a scheme gets the plain one. -/
theorem schemeOf_of_not_hasScheme (h : ¬hasScheme address = true) : schemeOf address = "http://" :=
  if_neg fun hhttps => h (hasScheme_iff.2 ⟨_, by decide, hhttps⟩)

/-- Whether an address is written so that a call reaches its endpoint. -/
structure Plain (address : String) : Prop where
  trimmed : Text.trim address.toList = address.toList
  /-- A scheme is followed by something. -/
  named : hasScheme address = true → ∃ c ∈ withoutScheme address.toList, c ≠ '/'
  bare : ¬hasScheme address = true → Text.dropEndWhile (· = '/') address.toList = address.toList

/-! ## The characters of an endpoint -/

/-- The characters of an endpoint before they are put in lower case. -/
def endpointChars (cs : List Char) : List Char :=
  Text.dropEndWhile (· = '/') (withoutScheme (Text.trim cs))

/-- Without a scheme nothing but the very characters of an endpoint is as long. -/
theorem map_eq_endpointChars_iff {cs : List Char} (hcs : ∀ p ∈ schemes, ¬p <+: cs) :
    cs.map Text.lowerAscii = (endpointChars cs).map Text.lowerAscii ↔
      Text.trim cs = cs ∧ Text.dropEndWhile (· = '/') cs = cs := by
  constructor
  · intro heq
    have hlength : (endpointChars cs).length = cs.length := by
      rw [← List.length_map Text.lowerAscii, ← heq, List.length_map]
    have hkept : (endpointChars cs).Sublist (Text.trim cs) :=
      (Text.dropEndWhile_sublist _ _).trans (Node.withoutScheme_sublist _)
    have hall : endpointChars cs = cs := (hkept.trans (Text.trim_sublist cs)).eq_of_length hlength
    have htrim : Text.trim cs = cs := by
      rw [hall] at hkept
      exact (Text.trim_sublist cs).antisymm hkept
    refine ⟨htrim, ?_⟩
    rwa [endpointChars, htrim, Node.withoutScheme_eq_self hcs] at hall
  · rintro ⟨htrim, hend⟩
    rw [endpointChars, htrim, Node.withoutScheme_eq_self hcs, hend]

/-- In front of a scheme there are no blanks. -/
theorem trim_scheme_append (hp : p ∈ schemes) :
    Text.trim (p ++ rest) = p ++ Text.dropEndWhile Text.isBlank rest := by
  have hstart : Text.trimStart (p ++ rest) = p ++ rest := by
    simp only [schemes, List.mem_cons, List.not_mem_nil, or_false] at hp
    rcases hp with rfl | rfl <;> rfl
  have hend : ∀ p ∈ schemes, Text.dropEndWhile Text.isBlank p = p := by decide
  rw [Text.trim, hstart, Text.dropEndWhile_append_of_eq_self (hend p hp)]

/-- Dropping the slashes of a scheme makes it shorter. -/
theorem length_dropEndWhile_scheme :
    ∀ p ∈ schemes, (Text.dropEndWhile (· = '/') p).length < p.length := by
  decide

/-- Behind a scheme slashes do not matter, if there is anything else. -/
theorem map_eq_scheme_append_iff (hp : p ∈ schemes) (rest : List Char) :
    (Text.dropEndWhile (· = '/') (p ++ rest)).map Text.lowerAscii =
        p ++ (endpointChars (p ++ rest)).map Text.lowerAscii ↔
      Text.trim (p ++ rest) = p ++ rest ∧ ∃ c ∈ rest, c ≠ '/' := by
  have htrim : Text.trim (p ++ rest) = p ++ Text.dropEndWhile Text.isBlank rest := trim_scheme_append hp
  have hchars : endpointChars (p ++ rest) =
      Text.dropEndWhile (· = '/') (Text.dropEndWhile Text.isBlank rest) := by
    rw [endpointChars, htrim, Node.withoutScheme_append hp]
  rw [hchars, htrim, List.append_cancel_left_eq]
  by_cases hrest : ∃ c ∈ rest, c ≠ '/'
  · have hurl : Text.dropEndWhile (· = '/') (p ++ rest) = p ++ Text.dropEndWhile (· = '/') rest :=
      Text.dropEndWhile_append_of_exists (by simpa using hrest)
    rw [hurl, List.map_append, Node.map_lowerAscii_scheme p hp, List.append_cancel_left_eq]
    refine ⟨fun heq => ⟨?_, hrest⟩, fun h => by rw [h.1]⟩
    -- dropping a blank would make the rest shorter, as no blank is a slash
    have hapart : ∀ c, Text.isBlank c = true → decide (c = '/') = false := by
      intro c hblank
      refine decide_eq_false fun hslash => ?_
      rw [hslash] at hblank
      exact absurd hblank (by decide)
    refine Text.dropEndWhile_eq_self_of_length_eq hapart ?_
    have hlength := congrArg List.length heq
    rwa [List.length_map, List.length_map] at hlength
  · refine iff_of_false (fun heq => ?_) fun h => hrest h.2
    -- nothing but slashes follows, so the slashes of the scheme go with them
    have hslashes : ∀ c ∈ rest, decide (c = '/') = true := by simpa using hrest
    rw [Text.dropEndWhile_append hslashes] at heq
    have hlength := congrArg List.length heq
    rw [List.length_map, List.length_append] at hlength
    have hlt := length_dropEndWhile_scheme p hp
    omega

/-! ## Calls -/

/-- **A node is called under its endpoint** just if its address is plain. -/
theorem lowered_url_eq_iff (n : Node) :
    Text.lowered (url n.address) = schemeOf n.address ++ n.endpointKey ++ Route.rpcPath ↔
      Plain n.address := by
  have hpath : Text.lowered Route.rpcPath = Route.rpcPath := by decide
  have hkey : n.endpointKey.toList = (endpointChars n.address.toList).map Text.lowerAscii :=
    String.toList_ofList
  by_cases hscheme : hasScheme n.address = true
  · obtain ⟨p, hp, rest, hrest⟩ := hasScheme_iff.1 hscheme
    have hchars := map_eq_scheme_append_iff hp rest
    have hrest' : withoutScheme n.address.toList = rest := by rw [← hrest, Node.withoutScheme_append hp]
    rw [url, if_pos hscheme, Text.lowered_append, hpath, String.append_left_inj, ← String.toList_inj,
      String.toList_append, schemeOf_of_prefix hp hrest.symm, hkey, Text.lowered, String.toList_ofList,
      String.toList_ofList, ← hrest, hchars, hrest]
    exact ⟨fun h => ⟨h.1, fun _ => hrest'.symm ▸ h.2, fun hnot => absurd hscheme hnot⟩,
      fun h => ⟨h.trimmed, hrest' ▸ h.named hscheme⟩⟩
  · have hchars := map_eq_endpointChars_iff fun p hp hprefix => hscheme (hasScheme_iff.2 ⟨p, hp, hprefix⟩)
    have hhttp : Text.lowered "http://" = "http://" := by decide
    rw [url, if_neg hscheme, Text.lowered_append, Text.lowered_append, hpath, hhttp,
      schemeOf_of_not_hasScheme hscheme, String.append_left_inj, String.append_right_inj,
      ← String.toList_inj, hkey, Text.lowered, String.toList_ofList, hchars]
    exact ⟨fun h => ⟨h.1, fun hnot => absurd hnot hscheme, fun _ => h.2⟩,
      fun h => ⟨h.trimmed, h.bare hscheme⟩⟩

/-- **Which alias of a node is kept makes no difference** among plain addresses with one scheme: all of them
are called under the scheme and the endpoint. Beside a plain address, any other one of the same endpoint is
called somewhere else. -/
theorem called_alike (me n : Node) (candidates : List Node) :
    (Text.lowered (url n.address) = schemeOf n.address ++ n.endpointKey ++ Route.rpcPath ↔
      Plain n.address) ∧
    (∀ m : Node, m.endpointKey = n.endpointKey → schemeOf m.address = schemeOf n.address →
      Plain m.address → (Text.lowered (url m.address) = Text.lowered (url n.address) ↔ Plain n.address)) ∧
    ((∀ m ∈ candidates, m.sameEndpoint n = true →
        Plain m.address ∧ schemeOf m.address = schemeOf n.address) →
      ∀ p ∈ Membership.remotePeers me candidates, p.sameEndpoint n = true →
        Text.lowered (url p.address) = schemeOf n.address ++ n.endpointKey ++ Route.rpcPath) := by
  refine ⟨lowered_url_eq_iff n, fun m hkey hscheme hm => ?_, fun hall p hp hsame => ?_⟩
  · rw [(lowered_url_eq_iff m).2 hm, hkey, hscheme, eq_comm]
    exact lowered_url_eq_iff n
  · have hmem := (Membership.peersOf_remotePeers me candidates).mem p hp
    obtain ⟨hplain, hscheme⟩ := hall p hmem hsame
    rw [(lowered_url_eq_iff p).2 hplain, hscheme, beq_iff_eq.1 hsame]

/-- A node known by its address with a scheme, capital letters and slashes, and by the same without. -/
theorem called_alike_of_slashes :
    let m := Node.peer "b" "http://B:1///"
    let n := Node.peer "c" "http://b:1"
    let peers := Membership.remotePeers ⟨"a", "a:1", true⟩ [m, n]
    peers = [m] ∧ Plain m.address ∧
      (Text.lowered (url m.address) = Text.lowered (url n.address) ↔ Plain n.address) ∧
      ∀ p ∈ peers, p.sameEndpoint n = true →
        Text.lowered (url p.address) = "http://b:1/api/v1/cluster/rpc" := by
  intro m n peers
  have hm : Plain m.address := ⟨by decide, fun _ => ⟨'B', by decide⟩, fun h => absurd (by decide) h⟩
  have hn : Plain n.address := ⟨by decide, fun _ => ⟨'b', by decide⟩, fun h => absurd (by decide) h⟩
  obtain ⟨-, halike, hpeers⟩ := called_alike ⟨"a", "a:1", true⟩ n [m, n]
  have hcalled : schemeOf n.address ++ n.endpointKey ++ Route.rpcPath = "http://b:1/api/v1/cluster/rpc" := by
    decide
  rw [hcalled] at hpeers
  refine ⟨by decide, hm, halike m (by decide) (by decide) hm, hpeers fun k hk _ => ?_⟩
  simp only [List.mem_cons, List.not_mem_nil, or_false] at hk
  rcases hk with rfl | rfl
  · exact ⟨hm, by decide⟩
  · exact ⟨hn, rfl⟩

/-- Without a scheme a slash at the end is called for, and with a blank in front there is nothing to call. -/
theorem url_of_alias :
    let n := Node.peer "b" "b:1"
    let slashed := Node.peer "c" "b:1/"
    let padded := Node.peer "b" " b:1"
    (slashed.endpointKey = n.endpointKey ∧ padded.endpointKey = n.endpointKey) ∧
      (hasScheme n.address = false ∧ hasScheme slashed.address = false ∧ hasScheme padded.address = false) ∧
      url n.address = "http://b:1/api/v1/cluster/rpc" ∧
      Text.lowered (url slashed.address) = "http://b:1//api/v1/cluster/rpc" ∧
      (isCallable n.address none = true ∧ isCallable padded.address none = false) ∧
      Membership.remotePeers ⟨"a", "a:1", true⟩ [slashed, n] = [slashed] := by
  decide

end Peer

end PushMesh
