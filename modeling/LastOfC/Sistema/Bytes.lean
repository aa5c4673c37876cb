import LastOfC.Cpu.Respuestas
import LastOfC.Sistema.Aislamiento

/-!
# Memoria is a byte array

* `ultimoByte`: the last byte that accepted requests wrote at an address.
* `memoria_corrida`: after any run, each byte of the memory is that one.
* `bytes_de_memoria`: so a `READ_MEM` gets the word of the last bytes, at any four addresses, and a
  `WRITE_MEM` changes no other byte.
-/

namespace LastOfC.Sistema

open Memoria Cpu Trace

variable {ent : Entorno} {s s' : Memoria.Estado} {a : Peticion} {as : List Peticion}
  {o : List Memoria.Envio} {x : Nat}

/-- The byte that a request writes at `x`. -/
def byteEscrito (cfg : ConfigMemoria) (x : Nat) : Peticion → Option Byte
  | .writeMem d =>
    if direccionAceptada cfg d.dirFis ∧ d.dirFis.toNat ≤ x ∧ x < d.dirFis.toNat + 4 then
      some (byteDe d.valor (x - d.dirFis.toNat))
    else none
  | _ => none

/-- The last byte that the requests wrote at `x`, or the one that was there. -/
def ultimoByte (cfg : ConfigMemoria) (m : Nat → Byte) (as : List Peticion) (x : Nat) : Byte :=
  ((as.filterMap (byteEscrito cfg x)).getLast?).getD (m x)

theorem ultimoByte_concat (cfg : ConfigMemoria) (m : Nat → Byte) (as : List Peticion)
    (a : Peticion) : ultimoByte cfg m (as ++ [a]) x =
      (byteEscrito cfg x a).getD (ultimoByte cfg m as x) := by
  rw [ultimoByte, List.filterMap_append]
  cases hb : byteEscrito cfg x a with
  | none =>
    have hnil : [a].filterMap (byteEscrito cfg x) = [] := by simp [hb]
    rw [hnil, List.append_nil]
    rfl
  | some b =>
    have hsingle : [a].filterMap (byteEscrito cfg x) = [b] := by simp [hb]
    rw [hsingle, List.getLast?_concat]
    rfl

/-- A request that memoria handled wrote what it says. -/
theorem atender_byte (h : atender ent s a = .ok (s', o)) :
    s'.memoria x = (byteEscrito ent.toConfigMemoria x a).getD (s.memoria x) := by
  by_cases hw : ∃ d, a = .writeMem d
  · obtain ⟨d, rfl⟩ := hw
    rw [reaches_writeMem (reaches_singleton.mpr ⟨o, h⟩)]
    simp only [byteEscrito, direccionAceptada, decide_eq_true_eq]
    by_cases hac : d.dirFis.toNat + 4 < ent.tamMemoria
    · rw [if_pos hac, escribirPalabra]
      by_cases hx : d.dirFis.toNat ≤ x ∧ x < d.dirFis.toNat + 4
      · rw [if_pos hx, if_pos ⟨hac, hx⟩]
        rfl
      · rw [if_neg hx, if_neg fun h => hx h.2]
        rfl
    · rw [if_neg hac, if_neg fun h => hac h.1]
      rfl
  · have hnone : byteEscrito ent.toConfigMemoria x a = none := by
      cases a with
      | writeMem d => exact absurd ⟨d, rfl⟩ hw
      | _ => rfl
    rw [hnone]
    rcases atender_memoria h with hm | ⟨d, rfl, -⟩
    · rw [hm]
      rfl
    · exact absurd ⟨d, rfl⟩ hw

theorem memoria_corrida (hs : Reaches (atender ent) s as s') (x : Nat) :
    s'.memoria x = ultimoByte ent.toConfigMemoria s.memoria as x := by
  refine hs.along
    (I := fun pre t => t.memoria x = ultimoByte ent.toConfigMemoria s.memoria pre x) rfl ?_
  intro pre s₁ a s₂ o _ _ hI hpaso
  rw [atender_byte hpaso, hI, ultimoByte_concat]

/-- After any run, the reply to a `READ_MEM` that memoria accepts carries the word of the last bytes
written at its four addresses, and a `WRITE_MEM` changes no byte outside of its own four. -/
theorem bytes_de_memoria (ent : Entorno) {s s' : Memoria.Estado} {as : List Peticion}
    (hs : Reaches (atender ent) s as s') :
    (∀ (d : TDatosReadMem) (offset : Uint32),
      direccionAceptada ent.toConfigMemoria d.dirFis = true →
      ∃ valor, atender ent s' (.readMem d) = .ok (s', [⟨.cpu, .enviarReadMem valor⟩]) ∧
        deserializarInt (bufferInt offset valor) =
          some (palabraDe (ultimoByte ent.toConfigMemoria s.memoria as d.dirFis.toNat)
            (ultimoByte ent.toConfigMemoria s.memoria as (d.dirFis.toNat + 1))
            (ultimoByte ent.toConfigMemoria s.memoria as (d.dirFis.toNat + 2))
            (ultimoByte ent.toConfigMemoria s.memoria as (d.dirFis.toNat + 3)))) ∧
    (∀ (d : TDatosWriteMem) (s'' : Memoria.Estado) (o : List Memoria.Envio) (x : Nat),
      atender ent s' (.writeMem d) = .ok (s'', o) →
      x < d.dirFis.toNat ∨ d.dirFis.toNat + 4 ≤ x → s''.memoria x = s'.memoria x) := by
  refine ⟨fun d offset hac => ?_, fun d s'' o x h hx => ?_⟩
  · refine ⟨leerPalabra s'.memoria d.dirFis.toNat, ?_, ?_⟩
    · show Memoria.readMem ent.toConfigMemoria s' d = _
      rw [Memoria.readMem, if_pos hac]
    · have hleer : deserializarInt (bufferInt offset (leerPalabra s'.memoria d.dirFis.toNat)) =
          some (leerPalabra s'.memoria d.dirFis.toNat) := by
        have hbytes := leer_bytesDe (leerPalabra s'.memoria d.dirFis.toNat) []
        rw [List.append_nil] at hbytes
        rw [deserializarInt, bufferInt, serializarInt, hbytes]
        rfl
      rw [hleer, leerPalabra, memoria_corrida hs, memoria_corrida hs, memoria_corrida hs,
        memoria_corrida hs]
      rfl
  · rcases atender_memoria h with hm | ⟨d', hd, hm⟩
    · rw [hm]
    · cases hd
      rw [hm, escribirPalabra_de_fuera hx]

/-- Two writes that overlap, and a read of the second and third byte of one and of the first two of
the other. -/
theorem bytes_de_memoria_solapados : ∃ s',
    Reaches (atender (entornoDinamico 100 cien_lt)) unProceso
      [.writeMem ⟨0, 0x04030201, 1, 0⟩, .writeMem ⟨3, 0x08070605, 1, 0⟩] s' ∧
    ∃ valor, atender (entornoDinamico 100 cien_lt) s' (.readMem ⟨1, 1, 0⟩) =
        .ok (s', [⟨.cpu, .enviarReadMem valor⟩]) ∧
      deserializarInt (bufferInt 0 valor) = some 0x06050302 := by
  have hs : Reaches (atender (entornoDinamico 100 cien_lt)) unProceso
      [.writeMem ⟨0, 0x04030201, 1, 0⟩, .writeMem ⟨3, 0x08070605, 1, 0⟩] _ := ⟨_, rfl⟩
  exact ⟨_, hs, (bytes_de_memoria _ hs).1 ⟨1, 1, 0⟩ 0 rfl⟩

end LastOfC.Sistema
