/-! The text encodings that files can be in, and the names by which each codec is registered. -/
namespace WindowLex

inductive Encoding where
  | utf8
  | utf8Marked
  | utf16le
  | ascii
  | latin1
  | foreign (codec : String)
  deriving DecidableEq, Repr

namespace Encoding

inductive Registered where
  | text (encoding : Encoding)
  | transformation
  deriving DecidableEq, Repr

structure Entry where
  meaning : Registered
  name : String
  /-- Other names. A name with dots also finds an alias with underscores in their place. -/
  aliases : List String
  deriving DecidableEq, Repr

def Entry.foreign (codec : String) (aliases : List String) : Entry :=
  ⟨.text (.foreign codec), codec, aliases⟩

def registry : List Entry := [
  ⟨.text .utf8, "utf_8", ["cp65001", "u8", "utf", "utf8", "utf8_ucs2", "utf8_ucs4"]⟩,
  ⟨.text .utf8Marked, "utf_8_sig", []⟩,
  ⟨.text .utf16le, "utf_16_le", ["unicodelittleunmarked", "utf_16le"]⟩,
  ⟨.text .ascii, "ascii", ["646", "ansi_x3.4_1968", "ansi_x3.4_1986", "ansi_x3_4_1968", "cp367",
    "csascii", "ibm367", "iso646_us", "iso_646.irv_1991", "iso_ir_6", "us", "us_ascii"]⟩,
  ⟨.text .latin1, "latin_1", ["8859", "cp819", "csisolatin1", "ibm819", "iso8859", "iso8859_1",
    "iso_8859_1", "iso_8859_1_1987", "iso_ir_100", "l1", "latin", "latin1"]⟩,
  ⟨.transformation, "base64_codec", ["base64", "base_64"]⟩,
  ⟨.transformation, "bz2_codec", ["bz2"]⟩,
  ⟨.transformation, "hex_codec", ["hex"]⟩,
  ⟨.transformation, "quopri_codec", ["quopri", "quoted_printable", "quotedprintable"]⟩,
  ⟨.transformation, "rot_13", ["rot13"]⟩,
  ⟨.transformation, "uu_codec", ["uu"]⟩,
  ⟨.transformation, "zlib_codec", ["zip", "zlib"]⟩,
  .foreign "big5" ["big5_tw", "csbig5", "x_mac_trad_chinese"],
  .foreign "big5hkscs" ["big5_hkscs", "hkscs"],
  .foreign "charmap" [],
  .foreign "cp037" ["037", "csibm037", "ebcdic_cp_ca", "ebcdic_cp_nl", "ebcdic_cp_us", "ebcdic_cp_wt",
    "ibm037", "ibm039"],
  .foreign "cp1006" [],
  .foreign "cp1026" ["1026", "csibm1026", "ibm1026"],
  .foreign "cp1125" ["1125", "cp866u", "ibm1125", "ruscii"],
  .foreign "cp1140" ["1140", "ibm1140"],
  .foreign "cp1250" ["1250", "windows_1250"],
  .foreign "cp1251" ["1251", "windows_1251"],
  .foreign "cp1252" ["1252", "windows_1252"],
  .foreign "cp1253" ["1253", "windows_1253"],
  .foreign "cp1254" ["1254", "windows_1254"],
  .foreign "cp1255" ["1255", "windows_1255"],
  .foreign "cp1256" ["1256", "windows_1256"],
  .foreign "cp1257" ["1257", "windows_1257"],
  .foreign "cp1258" ["1258", "windows_1258"],
  .foreign "cp273" ["273", "csibm273", "ibm273"],
  .foreign "cp424" ["424", "csibm424", "ebcdic_cp_he", "ibm424"],
  .foreign "cp437" ["437", "cspc8codepage437", "ibm437"],
  .foreign "cp500" ["500", "csibm500", "ebcdic_cp_be", "ebcdic_cp_ch", "ibm500"],
  .foreign "cp720" [],
  .foreign "cp737" [],
  .foreign "cp775" ["775", "cspc775baltic", "ibm775"],
  .foreign "cp850" ["850", "cspc850multilingual", "ibm850"],
  .foreign "cp852" ["852", "cspcp852", "ibm852"],
  .foreign "cp855" ["855", "csibm855", "ibm855"],
  .foreign "cp856" [],
  .foreign "cp857" ["857", "csibm857", "ibm857"],
  .foreign "cp858" ["858", "csibm858", "ibm858"],
  .foreign "cp860" ["860", "csibm860", "ibm860"],
  .foreign "cp861" ["861", "cp_is", "csibm861", "ibm861"],
  .foreign "cp862" ["862", "cspc862latinhebrew", "ibm862"],
  .foreign "cp863" ["863", "csibm863", "ibm863"],
  .foreign "cp864" ["864", "csibm864", "ibm864"],
  .foreign "cp865" ["865", "csibm865", "ibm865"],
  .foreign "cp866" ["866", "csibm866", "ibm866"],
  .foreign "cp869" ["869", "cp_gr", "csibm869", "ibm869"],
  .foreign "cp874" [],
  .foreign "cp875" [],
  .foreign "cp932" ["932", "ms932", "ms_kanji", "mskanji"],
  .foreign "cp949" ["949", "ms949", "uhc"],
  .foreign "cp950" ["950", "ms950"],
  .foreign "euc_jis_2004" ["euc_jis2004", "eucjis2004", "jisx0213"],
  .foreign "euc_jisx0213" ["eucjisx0213"],
  .foreign "euc_jp" ["eucjp", "u_jis", "ujis"],
  .foreign "euc_kr" ["euckr", "korean", "ks_c_5601", "ks_c_5601_1987", "ks_x_1001", "ksc5601", "ksx1001",
    "x_mac_korean"],
  .foreign "gb18030" ["gb18030_2000"],
  .foreign "gb2312" ["chinese", "csiso58gb231280", "euc_cn", "euccn", "eucgb2312_cn", "gb2312_1980",
    "gb2312_80", "iso_ir_58", "x_mac_simp_chinese"],
  .foreign "gbk" ["936", "cp936", "ms936"],
  .foreign "hp_roman8" ["cp1051", "ibm1051", "r8", "roman8"],
  .foreign "hz" ["hz_gb", "hz_gb_2312", "hzgb"],
  .foreign "idna" [],
  .foreign "iso2022_jp" ["csiso2022jp", "iso2022jp", "iso_2022_jp"],
  .foreign "iso2022_jp_1" ["iso2022jp_1", "iso_2022_jp_1"],
  .foreign "iso2022_jp_2" ["iso2022jp_2", "iso_2022_jp_2"],
  .foreign "iso2022_jp_2004" ["iso2022jp_2004", "iso_2022_jp_2004"],
  .foreign "iso2022_jp_3" ["iso2022jp_3", "iso_2022_jp_3"],
  .foreign "iso2022_jp_ext" ["iso2022jp_ext", "iso_2022_jp_ext"],
  .foreign "iso2022_kr" ["csiso2022kr", "iso2022kr", "iso_2022_kr"],
  .foreign "iso8859_10" ["csisolatin6", "iso_8859_10", "iso_8859_10_1992", "iso_ir_157", "l6", "latin6"],
  .foreign "iso8859_11" ["iso_8859_11", "iso_8859_11_2001", "thai"],
  .foreign "iso8859_13" ["iso_8859_13", "l7", "latin7"],
  .foreign "iso8859_14" ["iso_8859_14", "iso_8859_14_1998", "iso_celtic", "iso_ir_199", "l8", "latin8"],
  .foreign "iso8859_15" ["iso_8859_15", "l9", "latin9"],
  .foreign "iso8859_16" ["iso_8859_16", "iso_8859_16_2001", "iso_ir_226", "l10", "latin10"],
  .foreign "iso8859_2" ["csisolatin2", "iso_8859_2", "iso_8859_2_1987", "iso_ir_101", "l2", "latin2"],
  .foreign "iso8859_3" ["csisolatin3", "iso_8859_3", "iso_8859_3_1988", "iso_ir_109", "l3", "latin3"],
  .foreign "iso8859_4" ["csisolatin4", "iso_8859_4", "iso_8859_4_1988", "iso_ir_110", "l4", "latin4"],
  .foreign "iso8859_5" ["csisolatincyrillic", "cyrillic", "iso_8859_5", "iso_8859_5_1988", "iso_ir_144"],
  .foreign "iso8859_6" ["arabic", "asmo_708", "csisolatinarabic", "ecma_114", "iso_8859_6",
    "iso_8859_6_1987", "iso_ir_127"],
  .foreign "iso8859_7" ["csisolatingreek", "ecma_118", "elot_928", "greek", "greek8", "iso_8859_7",
    "iso_8859_7_1987", "iso_ir_126"],
  .foreign "iso8859_8" ["csisolatinhebrew", "hebrew", "iso_8859_8", "iso_8859_8_1988", "iso_ir_138"],
  .foreign "iso8859_9" ["csisolatin5", "iso_8859_9", "iso_8859_9_1989", "iso_ir_148", "l5", "latin5"],
  .foreign "johab" ["cp1361", "ms1361"],
  .foreign "koi8_r" ["cskoi8r"],
  .foreign "koi8_t" [],
  .foreign "koi8_u" [],
  .foreign "kz1048" ["kz_1048", "rk1048", "strk1048_2002"],
  .foreign "mac_arabic" [],
  .foreign "mac_croatian" [],
  .foreign "mac_cyrillic" ["maccyrillic"],
  .foreign "mac_farsi" [],
  .foreign "mac_greek" ["macgreek"],
  .foreign "mac_iceland" ["maciceland"],
  .foreign "mac_latin2" ["mac_centeuro", "maccentraleurope", "maclatin2"],
  .foreign "mac_roman" ["macintosh", "macroman"],
  .foreign "mac_romanian" [],
  .foreign "mac_turkish" ["macturkish"],
  .foreign "palmos" [],
  .foreign "ptcp154" ["cp154", "csptcp154", "cyrillic_asian", "pt154"],
  .foreign "punycode" [],
  .foreign "raw_unicode_escape" [],
  .foreign "shift_jis" ["csshiftjis", "s_jis", "shiftjis", "sjis", "x_mac_japanese"],
  .foreign "shift_jis_2004" ["s_jis_2004", "shiftjis2004", "sjis_2004"],
  .foreign "shift_jisx0213" ["s_jisx0213", "shiftjisx0213", "sjisx0213"],
  .foreign "tis_620" ["iso_ir_166", "tis620", "tis_620_0", "tis_620_2529_0", "tis_620_2529_1"],
  .foreign "undefined" [],
  .foreign "unicode_escape" [],
  .foreign "utf_16" ["u16", "utf16"],
  .foreign "utf_16_be" ["unicodebigunmarked", "utf_16be"],
  .foreign "utf_32" ["u32", "utf32"],
  .foreign "utf_32_be" ["utf_32be"],
  .foreign "utf_32_le" ["utf_32le"],
  .foreign "utf_7" ["u7", "unicode_1_1_utf_7", "utf7"]]

end Encoding

end WindowLex
