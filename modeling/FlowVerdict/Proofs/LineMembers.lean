import FlowVerdict.Proofs.HeaderMembers

/-!
# Members of record lines

The objects that a SYN or connection line holds under the names that events repeat, as they stand in
the line, and what the record keeps of them.
-/

namespace FlowVerdict

open Json (Members CarriesObject Follows Reader Field Schema readListed)

theorem IpHeader.follows (depth : Nat) :
    Follows ((IpHeader.schema depth).read (depth + 1)) (depth + 1) fun header given =>
      CarriesObject header.toJson given := by
  refine Json.follows_headerSchema .str (by decide) ?_ fun _ _ _ => rfl
  intro text addr rest hread
  obtain ⟨_, hgiven, rfl⟩ := Json.follows_readText depth text addr rest hread
  exact ⟨_, hgiven, rfl⟩

theorem TcpHeader.follows (depth : Nat) :
    Follows ((TcpHeader.schema depth).read (depth + 1)) (depth + 1) fun header given =>
      CarriesObject header.toJson given := by
  refine Json.follows_headerSchema (fun port => .ofNat port.toNat) (by decide) ?_ fun _ _ _ => rfl
  intro text port rest hread
  obtain ⟨_, hgiven, rfl⟩ := Json.follows_readPort depth text port rest hread
  exact ⟨_, hgiven, rfl⟩

namespace Syn

variable {draft next : Draft} {listed : Members} {name : String}

/-- The declared members of a SYN line, as they stand in it. -/
def listing (line : Json.Bytes) : Except Json.Fault Members :=
  Json.readWhole
    (((schema (Json.nestingLimit - 1)).listed (Json.nestingLimit - 1)).read Json.nestingLimit) line

structure Draft.Agrees (draft : Draft) (listed : Members) : Prop where
  ip : ∀ h, draft.ip = some h → ∃ given, listed.get? "IP" = some given ∧
    CarriesObject h.toJson given
  tcp : ∀ h, draft.tcp = some h → ∃ given, listed.get? "TCP" = some given ∧
    CarriesObject h.toJson given

/-- What has no header leaves the headers alone. -/
theorem Draft.Agrees.put (h : draft.Agrees listed) (hip : name ≠ "IP") (htcp : name ≠ "TCP")
    (given : Json) (hsameIp : next.ip = draft.ip) (hsameTcp : next.tcp = draft.tcp) :
    next.Agrees (listed.put name given) where
  ip header heq := by
    rw [Members.get?_put, if_neg hip]
    exact h.ip header (hsameIp ▸ heq)
  tcp header heq := by
    rw [Members.get?_put, if_neg htcp]
    exact h.tcp header (hsameTcp ▸ heq)

theorem lists (depth : Nat) : (schema (depth + 1)).Lists (depth + 1) Draft.Agrees where
  blank := ⟨fun _ h => (nomatch h), fun _ h => (nomatch h)⟩
  other := rfl
  read field hfield draft listed text next rest hagrees hnext := by
    simp only [schema, List.mem_cons, List.not_mem_nil, or_false] at hfield
    rcases hfield with rfl | rfl | rfl | rfl
    · obtain ⟨timestamp, hread, rfl⟩ := Json.of_field_read hnext
      obtain ⟨given, hgiven, _⟩ := Json.follows_readText (depth + 1) _ _ _ hread
      exact ⟨given, hgiven, hagrees.put (by decide) (by decide) given rfl rfl⟩
    · obtain ⟨unixtime, hread, rfl⟩ := Json.of_field_read hnext
      obtain ⟨given, hgiven, _⟩ := Json.follows_readDouble (depth + 1) _ _ _ hread
      exact ⟨given, hgiven, hagrees.put (by decide) (by decide) given rfl rfl⟩
    · obtain ⟨ip, hread, rfl⟩ := Json.of_field_read hnext
      obtain ⟨given, hgiven, hcarries⟩ := IpHeader.follows depth _ _ _ hread
      refine ⟨given, hgiven, ⟨?_, ?_⟩⟩
      · rintro _ ⟨⟩
        exact ⟨given, by rw [Members.get?_put]; exact if_pos rfl, hcarries⟩
      · intro header heq
        rw [Members.get?_put]
        exact hagrees.tcp header heq
    · obtain ⟨tcp, hread, rfl⟩ := Json.of_field_read hnext
      obtain ⟨given, hgiven, hcarries⟩ := TcpHeader.follows depth _ _ _ hread
      refine ⟨given, hgiven, ⟨?_, ?_⟩⟩
      · intro header heq
        rw [Members.get?_put]
        exact hagrees.ip header heq
      · rintro _ ⟨⟩
        exact ⟨given, by rw [Members.get?_put]; exact if_pos rfl, hcarries⟩

/-- The headers of a SYN carry those of its line. -/
theorem listing_of_parse {line : Json.Bytes} {syn : Syn} (h : parse line = .ok syn) :
    ∃ listed ip tcp, listing line = .ok listed ∧ listed.get? "IP" = some ip ∧
      listed.get? "TCP" = some tcp ∧ CarriesObject syn.ip.toJson ip ∧
      CarriesObject syn.tcp.toJson tcp ∧ listed.Fit (Json.nestingLimit - 1) := by
  obtain ⟨rest, hread, hend⟩ := Json.readWhole_eq_ok_iff.mp h
  obtain ⟨draft, listed, hfinish, hlisted, hagrees, hfit⟩ := (lists 125).of_read hread
  simp only [schema, Option.bind_eq_bind, Option.bind_eq_some_iff, Option.some.injEq] at hfinish
  obtain ⟨unixtime, _, header, hip, tcpHeader, htcp, rfl⟩ := hfinish
  obtain ⟨ip, hgetIp, hcarriesIp⟩ := hagrees.ip header hip
  obtain ⟨tcp, hgetTcp, hcarriesTcp⟩ := hagrees.tcp tcpHeader htcp
  exact ⟨listed, ip, tcp, Json.readWhole_eq_ok_iff.mpr ⟨rest, hlisted, hend⟩, hgetIp, hgetTcp,
    hcarriesIp, hcarriesTcp, hfit⟩

end Syn

namespace Connection

variable {draft next : Draft} {listed : Members} {name : String}

def listing (line : Json.Bytes) : Except Json.Fault Members :=
  Json.readWhole
    (((schema (Json.nestingLimit - 1)).listed (Json.nestingLimit - 1)).read Json.nestingLimit) line

def Draft.Agrees (draft : Draft) (listed : Members) : Prop :=
  draft.flow.map (·.getD .null) = (listed.get? "FLOW").map Json.merged

/-- What has no data leaves the data alone. -/
theorem Draft.Agrees.put (h : draft.Agrees listed) (hname : name ≠ "FLOW") (given : Json)
    (hsame : next.flow = draft.flow) : next.Agrees (listed.put name given) := by
  unfold Agrees at h ⊢
  rw [Members.get?_put, if_neg hname, hsame]
  exact h

theorem Draft.Agrees.follow {α : Type} {reader : Reader α} {P : α → Json → Prop} {value : α}
    {depth : Nat} {text rest : Json.Bytes} (h : draft.Agrees listed)
    (hfollows : Follows reader depth P) (hread : reader text = .ok (value, rest))
    (hname : name ≠ "FLOW") (hsame : next.flow = draft.flow) :
    ∃ given, readListed depth text = .ok (given, rest) ∧ next.Agrees (listed.put name given) := by
  obtain ⟨given, hgiven, _⟩ := hfollows _ _ _ hread
  exact ⟨given, hgiven, h.put hname given hsame⟩

theorem lists (depth : Nat) : (schema depth).Lists depth Draft.Agrees where
  blank := rfl
  other := rfl
  read field hfield draft listed text next rest hagrees hnext := by
    have htext := Json.follows_readText depth
    have hport := Json.follows_readPort depth
    have hdouble := Json.follows_readDouble depth
    simp only [schema, List.mem_cons, List.not_mem_nil, or_false] at hfield
    rcases hfield with rfl | rfl | rfl | rfl | rfl | rfl | rfl | rfl | rfl <;>
      obtain ⟨value, hread, rfl⟩ := Json.of_field_read hnext
    · exact hagrees.follow htext hread (by decide) rfl
    · exact hagrees.follow htext hread (by decide) rfl
    · exact hagrees.follow hport hread (by decide) rfl
    · exact hagrees.follow htext hread (by decide) rfl
    · exact hagrees.follow hport hread (by decide) rfl
    · exact hagrees.follow htext hread (by decide) rfl
    · exact hagrees.follow htext hread (by decide) rfl
    · exact hagrees.follow hdouble hread (by decide) rfl
    · obtain ⟨given, hgiven, hflow⟩ := Json.follows_readOptional depth _ _ _ hread
      refine ⟨given, hgiven, ?_⟩
      unfold Draft.Agrees
      rw [Members.get?_put]
      exact congrArg some hflow

/-- The data of a connection are those of its line, or `null` for none. -/
theorem listing_of_parse {line : Json.Bytes} {con : Connection} (h : parse line = .ok con) :
    ∃ listed, listing line = .ok listed ∧
      con.flow.getD .null = ((listed.get? "FLOW").getD .null).merged ∧
      listed.Fit (Json.nestingLimit - 1) := by
  obtain ⟨rest, hread, hend⟩ := Json.readWhole_eq_ok_iff.mp h
  obtain ⟨draft, listed, hfinish, hlisted, hagrees, hfit⟩ :=
    (lists (Json.nestingLimit - 1)).of_read hread
  simp only [schema, Option.bind_eq_bind, Option.bind_eq_some_iff, Option.some.injEq] at hfinish
  obtain ⟨_, _, _, _, _, _, _, _, _, _, rfl⟩ := hfinish
  refine ⟨listed, Json.readWhole_eq_ok_iff.mpr ⟨rest, hlisted, hend⟩, ?_, hfit⟩
  unfold Draft.Agrees at hagrees
  dsimp only
  cases hflow : draft.flow with
  | none =>
      rw [hflow] at hagrees
      rw [Option.map_eq_none_iff.mp hagrees.symm]
      rfl
  | some value =>
      rw [hflow] at hagrees
      obtain ⟨given, hgiven, hvalue⟩ := Option.map_eq_some_iff.mp hagrees.symm
      rw [hgiven]
      exact hvalue.symm

end Connection

end FlowVerdict
