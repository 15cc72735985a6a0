import OpenRisc.Table

set_option autoImplicit false

namespace OpenRisc

-- Major opcodes without a row, such as 0x07 or the vector space 0x0a, are not decoded.
def jumpAndSystemOpcodes : List Opcode :=
  [⟨"l.j", "N", "00 0x0  NNNNN NNNNN NNNN NNNN NNNN NNNN", some "l_j",
    delaySlotFlag, .jump⟩,
   ⟨"l.jal", "N", "00 0x1  NNNNN NNNNN NNNN NNNN NNNN NNNN", some "l_jal",
    delaySlotFlag, .jump⟩,
   ⟨"l.bnf", "N", "00 0x3  NNNNN NNNNN NNNN NNNN NNNN NNNN", some "l_bnf",
    delaySlotFlag ||| readsFlag, .branch⟩,
   ⟨"l.bf", "N", "00 0x4  NNNNN NNNNN NNNN NNNN NNNN NNNN", some "l_bf",
    delaySlotFlag ||| readsFlag, .branch⟩,
   ⟨"l.nop", "K", "00 0x5  01--- ----- KKKK KKKK KKKK KKKK", some "l_nop",
    0, .nop⟩,
   ⟨"l.movhi", "rD,K", "00 0x6  DDDDD ----0 KKKK KKKK KKKK KKKK", some "l_movhi",
    0, .movImm⟩,
   ⟨"l.macrc", "rD", "00 0x6  DDDDD ----1 0000 0000 0000 0000", some "l_macrc",
    0, .mac⟩,
   ⟨"l.sys", "K", "00 0x8  00000 00000 KKKK KKKK KKKK KKKK", some "l_sys",
    0, .exception⟩,
   ⟨"l.trap", "K", "00 0x8  01000 00000 KKKK KKKK KKKK KKKK", some "l_trap",
    0, .exception⟩,
   ⟨"l.msync", "", "00 0x8  10000 00000 0000 0000 0000 0000", none,
    0, .unknown⟩,
   ⟨"l.psync", "", "00 0x8  10100 00000 0000 0000 0000 0000", none,
    0, .unknown⟩,
   ⟨"l.csync", "", "00 0x8  11000 00000 0000 0000 0000 0000", none,
    0, .unknown⟩,
   ⟨"l.rfe", "", "00 0x9  ----- ----- ---- ---- ---- ----", some "l_rfe",
    0, .exception⟩]

def registerJumpAndCustomOpcodes : List Opcode :=
  [⟨"l.jr", "rB", "01 0x1  ----- ----- BBBB B--- ---- ----", some "l_jr",
    delaySlotFlag, .jump⟩,
   ⟨"l.jalr", "rB", "01 0x2  ----- ----- BBBB B--- ---- ----", some "l_jalr",
    delaySlotFlag, .jump⟩,
   ⟨"l.maci", "rA,I", "01 0x3  IIIII AAAAA ---- -III IIII IIII", some "l_maci",
    0, .mac⟩,
   ⟨"l.cust1", "", "01 0xC  ----- ----- ---- ---- ---- ----", some "l_cust1",
    0, .unknown⟩,
   ⟨"l.cust2", "", "01 0xD  ----- ----- ---- ---- ---- ----", some "l_cust2",
    0, .unknown⟩,
   ⟨"l.cust3", "", "01 0xE  ----- ----- ---- ---- ---- ----", some "l_cust3",
    0, .unknown⟩,
   ⟨"l.cust4", "", "01 0xF  ----- ----- ---- ---- ---- ----", some "l_cust4",
    0, .unknown⟩]

def immediateOpcodes : List Opcode :=
  [⟨"l.ld", "rD,I(rA)", "10 0x0  DDDDD AAAAA IIII IIII IIII IIII", none,
    0, .load⟩,
   ⟨"l.lwz", "rD,I(rA)", "10 0x1  DDDDD AAAAA IIII IIII IIII IIII", some "l_lwz",
    0, .load⟩,
   ⟨"l.lws", "rD,I(rA)", "10 0x2  DDDDD AAAAA IIII IIII IIII IIII", some "l_lws",
    0, .load⟩,
   ⟨"l.lbz", "rD,I(rA)", "10 0x3  DDDDD AAAAA IIII IIII IIII IIII", some "l_lbz",
    0, .load⟩,
   ⟨"l.lbs", "rD,I(rA)", "10 0x4  DDDDD AAAAA IIII IIII IIII IIII", some "l_lbs",
    0, .load⟩,
   ⟨"l.lhz", "rD,I(rA)", "10 0x5  DDDDD AAAAA IIII IIII IIII IIII", some "l_lhz",
    0, .load⟩,
   ⟨"l.lhs", "rD,I(rA)", "10 0x6  DDDDD AAAAA IIII IIII IIII IIII", some "l_lhs",
    0, .load⟩,
   ⟨"l.addi", "rD,rA,I", "10 0x7  DDDDD AAAAA IIII IIII IIII IIII", some "l_add",
    writesFlag, .arith⟩,
   ⟨"l.addic", "rD,rA,I", "10 0x8  DDDDD AAAAA IIII IIII IIII IIII", some "l_addc",
    writesFlag, .arith⟩,
   ⟨"l.andi", "rD,rA,K", "10 0x9  DDDDD AAAAA KKKK KKKK KKKK KKKK", some "l_and",
    writesFlag, .arith⟩,
   ⟨"l.ori", "rD,rA,K", "10 0xA  DDDDD AAAAA KKKK KKKK KKKK KKKK", some "l_or",
    0, .arith⟩,
   ⟨"l.xori", "rD,rA,I", "10 0xB  DDDDD AAAAA IIII IIII IIII IIII", some "l_xor",
    0, .arith⟩,
   ⟨"l.muli", "rD,rA,I", "10 0xC  DDDDD AAAAA IIII IIII IIII IIII", some "l_mul",
    0, .arith⟩,
   ⟨"l.mfspr", "rD,rA,K", "10 0xD  DDDDD AAAAA KKKK KKKK KKKK KKKK", some "l_mfspr",
    0, .move⟩,
   ⟨"l.slli", "rD,rA,L", "10 0xE  DDDDD AAAAA ---- ---- 00LL LLLL", some "l_sll",
    0, .shift⟩,
   ⟨"l.srli", "rD,rA,L", "10 0xE  DDDDD AAAAA ---- ---- 01LL LLLL", some "l_srl",
    0, .shift⟩,
   ⟨"l.srai", "rD,rA,L", "10 0xE  DDDDD AAAAA ---- ---- 10LL LLLL", some "l_sra",
    0, .shift⟩,
   ⟨"l.rori", "rD,rA,L", "10 0xE  DDDDD AAAAA ---- ---- 11LL LLLL", none,
    0, .shift⟩,
   ⟨"l.sfeqi", "rA,I", "10 0xF  00000 AAAAA IIII IIII IIII IIII", some "l_sfeq",
    writesFlag, .compare⟩,
   ⟨"l.sfnei", "rA,I", "10 0xF  00001 AAAAA IIII IIII IIII IIII", some "l_sfne",
    writesFlag, .compare⟩,
   ⟨"l.sfgtui", "rA,I", "10 0xF  00010 AAAAA IIII IIII IIII IIII", some "l_sfgtu",
    writesFlag, .compare⟩,
   ⟨"l.sfgeui", "rA,I", "10 0xF  00011 AAAAA IIII IIII IIII IIII", some "l_sfgeu",
    writesFlag, .compare⟩,
   ⟨"l.sfltui", "rA,I", "10 0xF  00100 AAAAA IIII IIII IIII IIII", some "l_sfltu",
    writesFlag, .compare⟩,
   ⟨"l.sfleui", "rA,I", "10 0xF  00101 AAAAA IIII IIII IIII IIII", some "l_sfleu",
    writesFlag, .compare⟩,
   ⟨"l.sfgtsi", "rA,I", "10 0xF  01010 AAAAA IIII IIII IIII IIII", some "l_sfgts",
    writesFlag, .compare⟩,
   ⟨"l.sfgesi", "rA,I", "10 0xF  01011 AAAAA IIII IIII IIII IIII", some "l_sfges",
    writesFlag, .compare⟩,
   ⟨"l.sfltsi", "rA,I", "10 0xF  01100 AAAAA IIII IIII IIII IIII", some "l_sflts",
    writesFlag, .compare⟩,
   ⟨"l.sflesi", "rA,I", "10 0xF  01101 AAAAA IIII IIII IIII IIII", some "l_sfles",
    writesFlag, .compare⟩]

def accumulatorOpcodes : List Opcode :=
  [⟨"l.mtspr", "rA,rB,K", "11 0x0  KKKKK AAAAA BBBB BKKK KKKK KKKK", some "l_mtspr",
    0, .move⟩,
   ⟨"l.mac", "rA,rB", "11 0x1  ----- AAAAA BBBB B--- ---- 0x1", some "l_mac",
    0, .mac⟩,
   ⟨"l.msb", "rA,rB", "11 0x1  ----- AAAAA BBBB B--- ---- 0x2", some "l_msb",
    0, .mac⟩]

def floatOpcodes : List Opcode :=
  [⟨"lf.add.s", "rD,rA,rB", "11 0x2  DDDDD AAAAA BBBB B--- 0x0 0x0", some "lf_add_s",
    0, .float⟩,
   ⟨"lf.sub.s", "rD,rA,rB", "11 0x2  DDDDD AAAAA BBBB B--- 0x0 0x1", some "lf_sub_s",
    0, .float⟩,
   ⟨"lf.mul.s", "rD,rA,rB", "11 0x2  DDDDD AAAAA BBBB B--- 0x0 0x2", some "lf_mul_s",
    0, .float⟩,
   ⟨"lf.div.s", "rD,rA,rB", "11 0x2  DDDDD AAAAA BBBB B--- 0x0 0x3", some "lf_div_s",
    0, .float⟩,
   ⟨"lf.itof.s", "rD,rA", "11 0x2  DDDDD AAAAA 0000 0--- 0x0 0x4", some "lf_itof_s",
    0, .float⟩,
   ⟨"lf.ftoi.s", "rD,rA", "11 0x2  DDDDD AAAAA 0000 0--- 0x0 0x5", some "lf_ftoi_s",
    0, .float⟩,
   ⟨"lf.rem.s", "rD,rA,rB", "11 0x2  DDDDD AAAAA BBBB B--- 0x0 0x6", some "lf_rem_s",
    0, .float⟩,
   ⟨"lf.madd.s", "rD,rA,rB", "11 0x2  DDDDD AAAAA BBBB B--- 0x0 0x7", some "lf_madd_s",
    0, .float⟩,
   ⟨"lf.sfeq.s", "rA,rB", "11 0x2  ----- AAAAA BBBB B--- 0x0 0x8", some "lf_sfeq_s",
    writesFlag, .float⟩,
   ⟨"lf.sfne.s", "rA,rB", "11 0x2  ----- AAAAA BBBB B--- 0x0 0x9", some "lf_sfne_s",
    writesFlag, .float⟩,
   ⟨"lf.sfgt.s", "rA,rB", "11 0x2  ----- AAAAA BBBB B--- 0x0 0xA", some "lf_sfgt_s",
    writesFlag, .float⟩,
   ⟨"lf.sfge.s", "rA,rB", "11 0x2  ----- AAAAA BBBB B--- 0x0 0xB", some "lf_sfge_s",
    writesFlag, .float⟩,
   ⟨"lf.sflt.s", "rA,rB", "11 0x2  ----- AAAAA BBBB B--- 0x0 0xC", some "lf_sflt_s",
    writesFlag, .float⟩,
   ⟨"lf.sfle.s", "rA,rB", "11 0x2  ----- AAAAA BBBB B--- 0x0 0xD", some "lf_sfle_s",
    writesFlag, .float⟩,
   ⟨"lf.cust1.s", "", "11 0x2  ----- ----- ---- ---- 0xE ----", none,
    0, .float⟩,
   ⟨"lf.add.d", "rD,rA,rB", "11 0x2  DDDDD AAAAA BBBB B--- 0x1 0x0", none,
    0, .float⟩,
   ⟨"lf.sub.d", "rD,rA,rB", "11 0x2  DDDDD AAAAA BBBB B--- 0x1 0x1", none,
    0, .float⟩,
   ⟨"lf.mul.d", "rD,rA,rB", "11 0x2  DDDDD AAAAA BBBB B--- 0x1 0x2", none,
    0, .float⟩,
   ⟨"lf.div.d", "rD,rA,rB", "11 0x2  DDDDD AAAAA BBBB B--- 0x1 0x3", none,
    0, .float⟩,
   ⟨"lf.itof.d", "rD,rA", "11 0x2  DDDDD AAAAA 0000 0--- 0x1 0x4", none,
    0, .float⟩,
   ⟨"lf.ftoi.d", "rD,rA", "11 0x2  DDDDD AAAAA 0000 0--- 0x1 0x5", none,
    0, .float⟩,
   ⟨"lf.rem.d", "rD,rA,rB", "11 0x2  DDDDD AAAAA BBBB B--- 0x1 0x6", none,
    0, .float⟩,
   ⟨"lf.madd.d", "rD,rA,rB", "11 0x2  DDDDD AAAAA BBBB B--- 0x1 0x7", none,
    0, .float⟩,
   ⟨"lf.sfeq.d", "rA,rB", "11 0x2  ----- AAAAA BBBB B--- 0x1 0x8", none,
    writesFlag, .float⟩,
   ⟨"lf.sfne.d", "rA,rB", "11 0x2  ----- AAAAA BBBB B--- 0x1 0x9", none,
    writesFlag, .float⟩,
   ⟨"lf.sfgt.d", "rA,rB", "11 0x2  ----- AAAAA BBBB B--- 0x1 0xA", none,
    writesFlag, .float⟩,
   ⟨"lf.sfge.d", "rA,rB", "11 0x2  ----- AAAAA BBBB B--- 0x1 0xB", none,
    writesFlag, .float⟩,
   ⟨"lf.sflt.d", "rA,rB", "11 0x2  ----- AAAAA BBBB B--- 0x1 0xC", none,
    writesFlag, .float⟩,
   ⟨"lf.sfle.d", "rA,rB", "11 0x2  ----- AAAAA BBBB B--- 0x1 0xD", none,
    writesFlag, .float⟩,
   ⟨"lf.cust1.d", "", "11 0x2  ----- ----- ---- ---- 0xF ----", none,
    0, .float⟩]

def storeOpcodes : List Opcode :=
  [⟨"l.sd", "I(rA),rB", "11 0x4  IIIII AAAAA BBBB BIII IIII IIII", none,
    0, .store⟩,
   ⟨"l.sw", "I(rA),rB", "11 0x5  IIIII AAAAA BBBB BIII IIII IIII", some "l_sw",
    0, .store⟩,
   ⟨"l.sb", "I(rA),rB", "11 0x6  IIIII AAAAA BBBB BIII IIII IIII", some "l_sb",
    0, .store⟩,
   ⟨"l.sh", "I(rA),rB", "11 0x7  IIIII AAAAA BBBB BIII IIII IIII", some "l_sh",
    0, .store⟩]

def registerOpcodes : List Opcode :=
  [⟨"l.add", "rD,rA,rB", "11 0x8  DDDDD AAAAA BBBB B-00 ---- 0x0", some "l_add",
    writesFlag, .arith⟩,
   ⟨"l.addc", "rD,rA,rB", "11 0x8  DDDDD AAAAA BBBB B-00 ---- 0x1", some "l_addc",
    writesFlag, .arith⟩,
   ⟨"l.sub", "rD,rA,rB", "11 0x8  DDDDD AAAAA BBBB B-00 ---- 0x2", some "l_sub",
    0, .arith⟩,
   ⟨"l.and", "rD,rA,rB", "11 0x8  DDDDD AAAAA BBBB B-00 ---- 0x3", some "l_and",
    writesFlag, .arith⟩,
   ⟨"l.or", "rD,rA,rB", "11 0x8  DDDDD AAAAA BBBB B-00 ---- 0x4", some "l_or",
    0, .arith⟩,
   ⟨"l.xor", "rD,rA,rB", "11 0x8  DDDDD AAAAA BBBB B-00 ---- 0x5", some "l_xor",
    0, .arith⟩,
   ⟨"l.mul", "rD,rA,rB", "11 0x8  DDDDD AAAAA BBBB B-11 ---- 0x6", some "l_mul",
    0, .arith⟩,
   ⟨"l.sll", "rD,rA,rB", "11 0x8  DDDDD AAAAA BBBB B-00 00-- 0x8", some "l_sll",
    0, .shift⟩,
   ⟨"l.srl", "rD,rA,rB", "11 0x8  DDDDD AAAAA BBBB B-00 01-- 0x8", some "l_srl",
    0, .shift⟩,
   ⟨"l.sra", "rD,rA,rB", "11 0x8  DDDDD AAAAA BBBB B-00 10-- 0x8", some "l_sra",
    0, .shift⟩,
   ⟨"l.ror", "rD,rA,rB", "11 0x8  DDDDD AAAAA BBBB B-00 11-- 0x8", none,
    0, .shift⟩,
   ⟨"l.div", "rD,rA,rB", "11 0x8  DDDDD AAAAA BBBB B-11 ---- 0x9", some "l_div",
    0, .arith⟩,
   ⟨"l.divu", "rD,rA,rB", "11 0x8  DDDDD AAAAA BBBB B-11 ---- 0xA", some "l_divu",
    0, .arith⟩,
   ⟨"l.mulu", "rD,rA,rB", "11 0x8  DDDDD AAAAA BBBB B-11 ---- 0xB", none,
    0, .arith⟩,
   ⟨"l.exths", "rD,rA", "11 0x8  DDDDD AAAAA ---- --00 00-- 0xC", some "l_exths",
    0, .extend⟩,
   ⟨"l.extbs", "rD,rA", "11 0x8  DDDDD AAAAA ---- --00 01-- 0xC", some "l_extbs",
    0, .extend⟩,
   ⟨"l.exthz", "rD,rA", "11 0x8  DDDDD AAAAA ---- --00 10-- 0xC", some "l_exthz",
    0, .extend⟩,
   ⟨"l.extbz", "rD,rA", "11 0x8  DDDDD AAAAA ---- --00 11-- 0xC", some "l_extbz",
    0, .extend⟩,
   ⟨"l.extws", "rD,rA", "11 0x8  DDDDD AAAAA ---- --00 00-- 0xD", some "l_extws",
    0, .extend⟩,
   ⟨"l.extwz", "rD,rA", "11 0x8  DDDDD AAAAA ---- --00 01-- 0xD", some "l_extwz",
    0, .extend⟩,
   ⟨"l.cmov", "rD,rA,rB", "11 0x8  DDDDD AAAAA BBBB B-00 ---- 0xE", some "l_cmov",
    readsFlag, .move⟩,
   ⟨"l.ff1", "rD,rA", "11 0x8  DDDDD AAAAA ---- --00 ---- 0xF", some "l_ff1",
    0, .arith⟩,
   ⟨"l.fl1", "rD,rA", "11 0x8  DDDDD AAAAA ---- --01 ---- 0xF", some "l_fl1",
    0, .arith⟩]

def compareOpcodes : List Opcode :=
  [⟨"l.sfeq", "rA,rB", "11 0x9  00000 AAAAA BBBB B--- ---- ----", some "l_sfeq",
    writesFlag, .compare⟩,
   ⟨"l.sfne", "rA,rB", "11 0x9  00001 AAAAA BBBB B--- ---- ----", some "l_sfne",
    writesFlag, .compare⟩,
   ⟨"l.sfgtu", "rA,rB", "11 0x9  00010 AAAAA BBBB B--- ---- ----", some "l_sfgtu",
    writesFlag, .compare⟩,
   ⟨"l.sfgeu", "rA,rB", "11 0x9  00011 AAAAA BBBB B--- ---- ----", some "l_sfgeu",
    writesFlag, .compare⟩,
   ⟨"l.sfltu", "rA,rB", "11 0x9  00100 AAAAA BBBB B--- ---- ----", some "l_sfltu",
    writesFlag, .compare⟩,
   ⟨"l.sfleu", "rA,rB", "11 0x9  00101 AAAAA BBBB B--- ---- ----", some "l_sfleu",
    writesFlag, .compare⟩,
   ⟨"l.sfgts", "rA,rB", "11 0x9  01010 AAAAA BBBB B--- ---- ----", some "l_sfgts",
    writesFlag, .compare⟩,
   ⟨"l.sfges", "rA,rB", "11 0x9  01011 AAAAA BBBB B--- ---- ----", some "l_sfges",
    writesFlag, .compare⟩,
   ⟨"l.sflts", "rA,rB", "11 0x9  01100 AAAAA BBBB B--- ---- ----", some "l_sflts",
    writesFlag, .compare⟩,
   ⟨"l.sfles", "rA,rB", "11 0x9  01101 AAAAA BBBB B--- ---- ----", some "l_sfles",
    writesFlag, .compare⟩]

def otherCustomOpcodes : List Opcode :=
  [⟨"l.cust5", "rD,rA,rB,L,K", "11 0xC  DDDDD AAAAA BBBB BLLL LLLK KKKK", none,
    0, .unknown⟩,
   ⟨"l.cust6", "", "11 0xD  ----- ----- ---- ---- ---- ----", none,
    0, .unknown⟩,
   ⟨"l.cust7", "", "11 0xE  ----- ----- ---- ---- ---- ----", none,
    0, .unknown⟩,
   ⟨"l.cust8", "", "11 0xF  ----- ----- ---- ---- ---- ----", none,
    0, .unknown⟩]

def instructions : List Opcode :=
  jumpAndSystemOpcodes ++ registerJumpAndCustomOpcodes ++ immediateOpcodes ++ accumulatorOpcodes ++
    floatOpcodes ++ storeOpcodes ++ registerOpcodes ++ compareOpcodes ++ otherCustomOpcodes

def instructionTable : Except TableError Table :=
  Table.compile instructions

end OpenRisc
