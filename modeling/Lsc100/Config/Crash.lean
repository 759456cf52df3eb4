import Lsc100.Config.Boot

/-! A power failure between the page writes of `sys_config_write`. The record has no
checksum and no second copy: the next boot takes what there is, the pages of the
new record followed by those of the old one. -/

namespace Lsc100

open Overlay

namespace BootDevice

/-- The configuration `system_init` goes on with, if it does not set the device up anew. -/
def accepted (i2c : I2cRead) (d : BootDevice) : Option ConfigInfo :=
  let config := sysConfigRead i2c d.eeprom d.config
  if config.flag ≠ devFlagFirstOn ∧ config.flag ≠ devFlagNextOn then none else some config

theorem accepted_systemInit {i2c : I2cRead} {d : BootDevice} {c : ConfigInfo}
    (h : d.accepted i2c = some c) : d.systemInit i2c = { d with config := Lsc100.systemInit c } := by
  rw [accepted] at h
  by_cases hreset : (sysConfigRead i2c d.eeprom d.config).flag ≠ devFlagFirstOn ∧
      (sysConfigRead i2c d.eeprom d.config).flag ≠ devFlagNextOn
  · rw [if_pos hreset] at h
    cases h
  · rw [if_neg hreset] at h
    cases h
    exact if_neg hreset

end BootDevice

/-- The first `pages` pages of the new record, then the old one. -/
def mixedImage (old new : ConfigInfo) (pages k : Nat) : UInt8 :=
  if k < 16 * pages then new.image k else old.image k

section Crash

variable {old new : ConfigInfo} {cells : Nat → UInt8} {i2c : I2cRead} {pages k : Nat}

theorem sysConfigWrite_cells (hcells : ∀ k < configInfoSize, cells k = old.image k)
    (hk : k < configInfoSize) :
    (sysConfigWrite pages ⟨cells, []⟩ new).cells k = mixedImage old new pages k := by
  rw [configInfoSize] at hk
  have hwrite : (sysConfigWrite pages ⟨cells, []⟩ new).cells =
    overlay (fun _ x => x) cells 0 (min (16 * pages) 86) new.image := fm24cWrite_eq cells rfl _ _ _
  rw [hwrite, mixedImage]
  by_cases hnew : k < 16 * pages
  · rw [if_pos hnew, overlay_in _ _ _ (Nat.zero_le k) (by omega), Nat.sub_zero]
  · rw [if_neg hnew, overlay_out _ _ _ (by omega)]
    exact hcells k hk

theorem sysConfigRead_eq {e : Eeprom} {config : ConfigInfo} {b : Nat → UInt8}
    (hread : i2c.Delivers configInfoSize) (hcells : ∀ k < configInfoSize, e.cells k = b k) :
    sysConfigRead i2c e config = .ofImage b := by
  refine ConfigInfo.ofImage_congr fun k hk => ?_
  rw [fm24cRead_delivered hk (hread.mono hk), Nat.zero_add]
  exact hcells k hk

theorem mixedImage_flag (hold : old.Configured) (hnew : new.Configured) :
    (ConfigInfo.ofImage (mixedImage old new pages)).Configured := by
  have hflag : (ConfigInfo.ofImage (mixedImage old new pages)).flag =
    if 6 < 16 * pages then new.flag else old.flag := rfl
  rw [ConfigInfo.Configured, hflag]
  split
  · exact hnew
  · exact hold

theorem mixedImage_eq_iff (c : ConfigInfo) :
    ConfigInfo.ofImage (mixedImage old new pages) = c ↔
      ∀ k < configInfoSize, mixedImage old new pages k = c.image k := by
  constructor
  · intro heq k hk
    rw [← heq, ConfigInfo.image_ofImage hk]
  · exact fun h => ConfigInfo.eq_of_image fun k hk => (ConfigInfo.image_ofImage hk).trans (h k hk)

end Crash

/-- What the next boot accepts after `pages` page writes: never a new setup, and the
complete old or new record only if the two agree on one side of the cut. -/
theorem sysConfigWrite_cut {old new : ConfigInfo} (hold : old.Configured) (hnew : new.Configured)
    {cells : Nat → UInt8} (hcells : ∀ k < configInfoSize, cells k = old.image k)
    {i2c : I2cRead} (hread : i2c.Delivers configInfoSize) (pages : Nat) (rtc : SystemTime)
    (flash : Flash) :
    ∃ c, (BootDevice.powerOn (sysConfigWrite pages ⟨cells, []⟩ new).cells rtc flash).accepted i2c =
        some c ∧
      (∀ k < configInfoSize, c.image k = if k < 16 * pages then new.image k else old.image k) ∧
      (c = new ↔ ∀ k < configInfoSize, 16 * pages ≤ k → old.image k = new.image k) ∧
      (c = old ↔ ∀ k < configInfoSize, k < 16 * pages → old.image k = new.image k) := by
  have hconfig : sysConfigRead i2c ⟨(sysConfigWrite pages ⟨cells, []⟩ new).cells, []⟩ .zero =
      .ofImage (mixedImage old new pages) :=
    sysConfigRead_eq hread fun k hk => sysConfigWrite_cells hcells hk
  have hconfigured : (ConfigInfo.ofImage (mixedImage old new pages)).Configured :=
    mixedImage_flag hold hnew
  refine ⟨.ofImage (mixedImage old new pages), ?_, fun k hk => ConfigInfo.image_ofImage hk, ?_, ?_⟩
  · rw [BootDevice.accepted, BootDevice.powerOn, hconfig]
    exact if_neg (not_and_or.mpr (hconfigured.imp not_not_intro not_not_intro))
  · rw [mixedImage_eq_iff]
    refine forall₂_congr fun k hk => ?_
    rw [mixedImage]
    by_cases hcut : k < 16 * pages
    · rw [if_pos hcut]
      exact iff_of_true rfl fun hle => absurd hcut (Nat.not_lt_of_le hle)
    · rw [if_neg hcut]
      exact ⟨fun heq _ => heq, fun h => h (Nat.le_of_not_lt hcut)⟩
  · rw [mixedImage_eq_iff]
    refine forall₂_congr fun k hk => ?_
    rw [mixedImage]
    by_cases hcut : k < 16 * pages
    · rw [if_pos hcut, forall_prop_of_true hcut]
      exact eq_comm
    · rw [if_neg hcut]
      exact iff_of_true rfl fun hlt => absurd hlt hcut

def I2cRead.free : I2cRead := ⟨true, true, true, fun _ => true⟩

theorem I2cRead.free_delivers (n : Nat) : free.Delivers n :=
  ⟨rfl, rfl, rfl, fun _ _ => rfl⟩

/-- A recorder before and after the write of an index block. -/
def configBefore : ConfigInfo :=
  { ConfigInfo.nextOn with
    blockNum := 5
    currBlock := 5
    strTime := 1774601400
    endTime := 1774601719 }

def configAfter : ConfigInfo :=
  { configBefore with blockNum := 6, currBlock := 6, endTime := 1774601783 }

theorem sysConfigWrite_cut_five :
    ∃ c, (BootDevice.powerOn (sysConfigWrite 5 ⟨configBefore.image, []⟩ configAfter).cells
        ⟨0x26, 0x03, 0x27, 0x08, 0x50, 0x00⟩ .erased).accepted .free = some c ∧
      (∀ k < configInfoSize,
        c.image k = if k < 16 * 5 then configAfter.image k else configBefore.image k) ∧
      (c = configAfter ↔
        ∀ k < configInfoSize, 16 * 5 ≤ k → configBefore.image k = configAfter.image k) ∧
      (c = configBefore ↔
        ∀ k < configInfoSize, k < 16 * 5 → configBefore.image k = configAfter.image k) :=
  sysConfigWrite_cut (.inr rfl) (.inr rfl) (fun _ _ => rfl) (I2cRead.free_delivers _) 5 _ _

/-- The boot takes six index blocks from the new record and the end time from the old. -/
theorem sysConfigWrite_torn :
    ∃ c, (BootDevice.powerOn (sysConfigWrite 5 ⟨configBefore.image, []⟩ configAfter).cells
        ⟨0x26, 0x03, 0x27, 0x08, 0x50, 0x00⟩ .erased).accepted .free = some c ∧
      c.blockNum = 6 ∧ c.endTime = 1774601719 ∧ c ≠ configBefore ∧ c ≠ configAfter := by
  have hconfig : sysConfigRead .free
      ⟨(sysConfigWrite 5 ⟨configBefore.image, []⟩ configAfter).cells, []⟩ .zero =
      .ofImage (mixedImage configBefore configAfter 5) :=
    sysConfigRead_eq (I2cRead.free_delivers _) fun k hk => sysConfigWrite_cells (fun _ _ => rfl) hk
  have hblock : (ConfigInfo.ofImage (mixedImage configBefore configAfter 5)).blockNum = 6 := by
    decide +kernel
  have hend : (ConfigInfo.ofImage (mixedImage configBefore configAfter 5)).endTime = 1774601719 := by
    decide +kernel
  refine ⟨_, ?_, hblock, hend, fun heq => ?_, fun heq => ?_⟩
  · rw [BootDevice.accepted, BootDevice.powerOn, hconfig]
    exact if_neg (by decide +kernel)
  · rw [heq] at hblock
    exact absurd hblock (by decide)
  · rw [heq] at hend
    exact absurd hend (by decide)

end Lsc100
