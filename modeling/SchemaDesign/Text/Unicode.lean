/-!
# Character classes

Which characters are letters or digits, and which a quoted text shows as they are and which it
writes as an escape.

A character is alphanumeric when it is alphabetic or a number of any kind. A character
is printable unless it is a control, format, surrogate, private-use or unassigned character or a
separator other than the space; characters from U+20000 on are printable except in the unassigned
stretches between the ideograph blocks and from the supplementary private-use planes on. A
character that extends the grapheme before it, such as a combining accent, is escaped as well,
so that it cannot merge with the quote or the escape before it.

The tables follow Unicode 15.0, each a list of ranges of code points, first and last included,
written in hexadecimal.
-/

namespace SchemaDesign

namespace Unicode

/-- The value of a hexadecimal text. -/
def hexValue (s : String) : Nat :=
  s.toList.foldl (fun n c =>
    n * 16 + (if c.isDigit then c.toNat - 48 else if 'a' ≤ c && c ≤ 'f' then c.toNat - 87
      else c.toNat - 55)) 0

/-- The ranges written in texts of `first-last` pairs separated by commas. -/
def parseRanges (chunks : List String) : List (Nat × Nat) :=
  (chunks.flatMap (·.splitOn ",")).map fun r =>
    match r.splitOn "-" with
    | [a, b] => (hexValue a, hexValue b)
    | _ => (hexValue r, hexValue r)

/-- Whether a code point lies in one of the ranges. -/
def inRanges (ranges : List (Nat × Nat)) (n : Nat) : Bool :=
  ranges.any fun (a, b) => a ≤ n && n ≤ b

/-- The code points below U+20000 that are controls, format characters, surrogates, private-use
or unassigned characters, or separators other than the space. -/
def unprintableTable : List (Nat × Nat) :=
  parseRanges
  ["0-1f,7f-a0,ad-ad,378-379,380-383,38b-38b,38d-38d,3a2-3a2,530-530,557-558,58b-58c,590-590",
   "5c8-5cf,5eb-5ee,5f5-605,61c-61c,6dd-6dd,70e-70f,74b-74c,7b2-7bf,7fb-7fc,82e-82f,83f-83f",
   "85c-85d,85f-85f,86b-86f,88f-897,8e2-8e2,984-984,98d-98e,991-992,9a9-9a9,9b1-9b1,9b3-9b5",
   "9ba-9bb,9c5-9c6,9c9-9ca,9cf-9d6,9d8-9db,9de-9de,9e4-9e5,9ff-a00,a04-a04,a0b-a0e,a11-a12",
   "a29-a29,a31-a31,a34-a34,a37-a37,a3a-a3b,a3d-a3d,a43-a46,a49-a4a,a4e-a50,a52-a58,a5d-a5d",
   "a5f-a65,a77-a80,a84-a84,a8e-a8e,a92-a92,aa9-aa9,ab1-ab1,ab4-ab4,aba-abb,ac6-ac6,aca-aca",
   "ace-acf,ad1-adf,ae4-ae5,af2-af8,b00-b00,b04-b04,b0d-b0e,b11-b12,b29-b29,b31-b31,b34-b34",
   "b3a-b3b,b45-b46,b49-b4a,b4e-b54,b58-b5b,b5e-b5e,b64-b65,b78-b81,b84-b84,b8b-b8d,b91-b91",
   "b96-b98,b9b-b9b,b9d-b9d,ba0-ba2,ba5-ba7,bab-bad,bba-bbd,bc3-bc5,bc9-bc9,bce-bcf,bd1-bd6",
   "bd8-be5,bfb-bff,c0d-c0d,c11-c11,c29-c29,c3a-c3b,c45-c45,c49-c49,c4e-c54,c57-c57,c5b-c5c",
   "c5e-c5f,c64-c65,c70-c76,c8d-c8d,c91-c91,ca9-ca9,cb4-cb4,cba-cbb,cc5-cc5,cc9-cc9,cce-cd4",
   "cd7-cdc,cdf-cdf,ce4-ce5,cf0-cf0,cf4-cff,d0d-d0d,d11-d11,d45-d45,d49-d49,d50-d53,d64-d65",
   "d80-d80,d84-d84,d97-d99,db2-db2,dbc-dbc,dbe-dbf,dc7-dc9,dcb-dce,dd5-dd5,dd7-dd7,de0-de5",
   "df0-df1,df5-e00,e3b-e3e,e5c-e80,e83-e83,e85-e85,e8b-e8b,ea4-ea4,ea6-ea6,ebe-ebf,ec5-ec5",
   "ec7-ec7,ecf-ecf,eda-edb,ee0-eff,f48-f48,f6d-f70,f98-f98,fbd-fbd,fcd-fcd,fdb-fff",
   "10c6-10c6,10c8-10cc,10ce-10cf,1249-1249,124e-124f,1257-1257,1259-1259,125e-125f",
   "1289-1289,128e-128f,12b1-12b1,12b6-12b7,12bf-12bf,12c1-12c1,12c6-12c7,12d7-12d7",
   "1311-1311,1316-1317,135b-135c,137d-137f,139a-139f,13f6-13f7,13fe-13ff,1680-1680",
   "169d-169f,16f9-16ff,1716-171e,1737-173f,1754-175f,176d-176d,1771-1771,1774-177f",
   "17de-17df,17ea-17ef,17fa-17ff,180e-180e,181a-181f,1879-187f,18ab-18af,18f6-18ff",
   "191f-191f,192c-192f,193c-193f,1941-1943,196e-196f,1975-197f,19ac-19af,19ca-19cf",
   "19db-19dd,1a1c-1a1d,1a5f-1a5f,1a7d-1a7e,1a8a-1a8f,1a9a-1a9f,1aae-1aaf,1acf-1aff",
   "1b4d-1b4f,1b7f-1b7f,1bf4-1bfb,1c38-1c3a,1c4a-1c4c,1c89-1c8f,1cbb-1cbc,1cc8-1ccf",
   "1cfb-1cff,1f16-1f17,1f1e-1f1f,1f46-1f47,1f4e-1f4f,1f58-1f58,1f5a-1f5a,1f5c-1f5c",
   "1f5e-1f5e,1f7e-1f7f,1fb5-1fb5,1fc5-1fc5,1fd4-1fd5,1fdc-1fdc,1ff0-1ff1,1ff5-1ff5",
   "1fff-200f,2028-202f,205f-206f,2072-2073,208f-208f,209d-209f,20c1-20cf,20f1-20ff",
   "218c-218f,2427-243f,244b-245f,2b74-2b75,2b96-2b96,2cf4-2cf8,2d26-2d26,2d28-2d2c",
   "2d2e-2d2f,2d68-2d6e,2d71-2d7e,2d97-2d9f,2da7-2da7,2daf-2daf,2db7-2db7,2dbf-2dbf",
   "2dc7-2dc7,2dcf-2dcf,2dd7-2dd7,2ddf-2ddf,2e5e-2e7f,2e9a-2e9a,2ef4-2eff,2fd6-2fef",
   "2ffc-3000,3040-3040,3097-3098,3100-3104,3130-3130,318f-318f,31e4-31ef,321f-321f",
   "a48d-a48f,a4c7-a4cf,a62c-a63f,a6f8-a6ff,a7cb-a7cf,a7d2-a7d2,a7d4-a7d4,a7da-a7f1",
   "a82d-a82f,a83a-a83f,a878-a87f,a8c6-a8cd,a8da-a8df,a954-a95e,a97d-a97f,a9ce-a9ce",
   "a9da-a9dd,a9ff-a9ff,aa37-aa3f,aa4e-aa4f,aa5a-aa5b,aac3-aada,aaf7-ab00,ab07-ab08",
   "ab0f-ab10,ab17-ab1f,ab27-ab27,ab2f-ab2f,ab6c-ab6f,abee-abef,abfa-abff,d7a4-d7af",
   "d7c7-d7ca,d7fc-f8ff,fa6e-fa6f,fada-faff,fb07-fb12,fb18-fb1c,fb37-fb37,fb3d-fb3d",
   "fb3f-fb3f,fb42-fb42,fb45-fb45,fbc3-fbd2,fd90-fd91,fdc8-fdce,fdd0-fdef,fe1a-fe1f",
   "fe53-fe53,fe67-fe67,fe6c-fe6f,fe75-fe75,fefd-ff00,ffbf-ffc1,ffc8-ffc9,ffd0-ffd1",
   "ffd8-ffd9,ffdd-ffdf,ffe7-ffe7,ffef-fffb,fffe-ffff,1000c-1000c,10027-10027,1003b-1003b",
   "1003e-1003e,1004e-1004f,1005e-1007f,100fb-100ff,10103-10106,10134-10136,1018f-1018f",
   "1019d-1019f,101a1-101cf,101fe-1027f,1029d-1029f,102d1-102df,102fc-102ff,10324-1032c",
   "1034b-1034f,1037b-1037f,1039e-1039e,103c4-103c7,103d6-103ff,1049e-1049f,104aa-104af",
   "104d4-104d7,104fc-104ff,10528-1052f,10564-1056e,1057b-1057b,1058b-1058b,10593-10593",
   "10596-10596,105a2-105a2,105b2-105b2,105ba-105ba,105bd-105ff,10737-1073f,10756-1075f",
   "10768-1077f,10786-10786,107b1-107b1,107bb-107ff,10806-10807,10809-10809,10836-10836",
   "10839-1083b,1083d-1083e,10856-10856,1089f-108a6,108b0-108df,108f3-108f3,108f6-108fa",
   "1091c-1091e,1093a-1093e,10940-1097f,109b8-109bb,109d0-109d1,10a04-10a04,10a07-10a0b",
   "10a14-10a14,10a18-10a18,10a36-10a37,10a3b-10a3e,10a49-10a4f,10a59-10a5f,10aa0-10abf",
   "10ae7-10aea,10af7-10aff,10b36-10b38,10b56-10b57,10b73-10b77,10b92-10b98,10b9d-10ba8",
   "10bb0-10bff,10c49-10c7f,10cb3-10cbf,10cf3-10cf9,10d28-10d2f,10d3a-10e5f,10e7f-10e7f",
   "10eaa-10eaa,10eae-10eaf,10eb2-10efc,10f28-10f2f,10f5a-10f6f,10f8a-10faf,10fcc-10fdf",
   "10ff7-10fff,1104e-11051,11076-1107e,110bd-110bd,110c3-110cf,110e9-110ef,110fa-110ff",
   "11135-11135,11148-1114f,11177-1117f,111e0-111e0,111f5-111ff,11212-11212,11242-1127f",
   "11287-11287,11289-11289,1128e-1128e,1129e-1129e,112aa-112af,112eb-112ef,112fa-112ff",
   "11304-11304,1130d-1130e,11311-11312,11329-11329,11331-11331,11334-11334,1133a-1133a",
   "11345-11346,11349-1134a,1134e-1134f,11351-11356,11358-1135c,11364-11365,1136d-1136f",
   "11375-113ff,1145c-1145c,11462-1147f,114c8-114cf,114da-1157f,115b6-115b7,115de-115ff",
   "11645-1164f,1165a-1165f,1166d-1167f,116ba-116bf,116ca-116ff,1171b-1171c,1172c-1172f",
   "11747-117ff,1183c-1189f,118f3-118fe,11907-11908,1190a-1190b,11914-11914,11917-11917",
   "11936-11936,11939-1193a,11947-1194f,1195a-1199f,119a8-119a9,119d8-119d9,119e5-119ff",
   "11a48-11a4f,11aa3-11aaf,11af9-11aff,11b0a-11bff,11c09-11c09,11c37-11c37,11c46-11c4f",
   "11c6d-11c6f,11c90-11c91,11ca8-11ca8,11cb7-11cff,11d07-11d07,11d0a-11d0a,11d37-11d39",
   "11d3b-11d3b,11d3e-11d3e,11d48-11d4f,11d5a-11d5f,11d66-11d66,11d69-11d69,11d8f-11d8f",
   "11d92-11d92,11d99-11d9f,11daa-11edf,11ef9-11eff,11f11-11f11,11f3b-11f3d,11f5a-11faf",
   "11fb1-11fbf,11ff2-11ffe,1239a-123ff,1246f-1246f,12475-1247f,12544-12f8f,12ff3-12fff",
   "13430-1343f,13456-143ff,14647-167ff,16a39-16a3f,16a5f-16a5f,16a6a-16a6d,16abf-16abf",
   "16aca-16acf,16aee-16aef,16af6-16aff,16b46-16b4f,16b5a-16b5a,16b62-16b62,16b78-16b7c",
   "16b90-16e3f,16e9b-16eff,16f4b-16f4e,16f88-16f8e,16fa0-16fdf,16fe5-16fef,16ff2-16fff",
   "187f8-187ff,18cd6-18cff,18d09-1afef,1aff4-1aff4,1affc-1affc,1afff-1afff,1b123-1b131",
   "1b133-1b14f,1b153-1b154,1b156-1b163,1b168-1b16f,1b2fc-1bbff,1bc6b-1bc6f,1bc7d-1bc7f",
   "1bc89-1bc8f,1bc9a-1bc9b,1bca0-1ceff,1cf2e-1cf2f,1cf47-1cf4f,1cfc4-1cfff,1d0f6-1d0ff",
   "1d127-1d128,1d173-1d17a,1d1eb-1d1ff,1d246-1d2bf,1d2d4-1d2df,1d2f4-1d2ff,1d357-1d35f",
   "1d379-1d3ff,1d455-1d455,1d49d-1d49d,1d4a0-1d4a1,1d4a3-1d4a4,1d4a7-1d4a8,1d4ad-1d4ad",
   "1d4ba-1d4ba,1d4bc-1d4bc,1d4c4-1d4c4,1d506-1d506,1d50b-1d50c,1d515-1d515,1d51d-1d51d",
   "1d53a-1d53a,1d53f-1d53f,1d545-1d545,1d547-1d549,1d551-1d551,1d6a6-1d6a7,1d7cc-1d7cd",
   "1da8c-1da9a,1daa0-1daa0,1dab0-1deff,1df1f-1df24,1df2b-1dfff,1e007-1e007,1e019-1e01a",
   "1e022-1e022,1e025-1e025,1e02b-1e02f,1e06e-1e08e,1e090-1e0ff,1e12d-1e12f,1e13e-1e13f",
   "1e14a-1e14d,1e150-1e28f,1e2af-1e2bf,1e2fa-1e2fe,1e300-1e4cf,1e4fa-1e7df,1e7e7-1e7e7",
   "1e7ec-1e7ec,1e7ef-1e7ef,1e7ff-1e7ff,1e8c5-1e8c6,1e8d7-1e8ff,1e94c-1e94f,1e95a-1e95d",
   "1e960-1ec70,1ecb5-1ed00,1ed3e-1edff,1ee04-1ee04,1ee20-1ee20,1ee23-1ee23,1ee25-1ee26",
   "1ee28-1ee28,1ee33-1ee33,1ee38-1ee38,1ee3a-1ee3a,1ee3c-1ee41,1ee43-1ee46,1ee48-1ee48",
   "1ee4a-1ee4a,1ee4c-1ee4c,1ee50-1ee50,1ee53-1ee53,1ee55-1ee56,1ee58-1ee58,1ee5a-1ee5a",
   "1ee5c-1ee5c,1ee5e-1ee5e,1ee60-1ee60,1ee63-1ee63,1ee65-1ee66,1ee6b-1ee6b,1ee73-1ee73",
   "1ee78-1ee78,1ee7d-1ee7d,1ee7f-1ee7f,1ee8a-1ee8a,1ee9c-1eea0,1eea4-1eea4,1eeaa-1eeaa",
   "1eebc-1eeef,1eef2-1efff,1f02c-1f02f,1f094-1f09f,1f0af-1f0b0,1f0c0-1f0c0,1f0d0-1f0d0",
   "1f0f6-1f0ff,1f1ae-1f1e5,1f203-1f20f,1f23c-1f23f,1f249-1f24f,1f252-1f25f,1f266-1f2ff",
   "1f6d8-1f6db,1f6ed-1f6ef,1f6fd-1f6ff,1f777-1f77a,1f7da-1f7df,1f7ec-1f7ef,1f7f1-1f7ff",
   "1f80c-1f80f,1f848-1f84f,1f85a-1f85f,1f888-1f88f,1f8ae-1f8af,1f8b2-1f8ff,1fa54-1fa5f",
   "1fa6e-1fa6f,1fa7d-1fa7f,1fa89-1fa8f,1fabe-1fabe,1fac6-1facd,1fadc-1fadf,1fae9-1faef",
   "1faf9-1faff,1fb93-1fb93,1fbcb-1fbef,1fbfa-1ffff"]

/-- The code points with the property Grapheme_Extend. -/
def graphemeExtendTable : List (Nat × Nat) :=
  parseRanges
  ["300-36f,483-489,591-5bd,5bf-5bf,5c1-5c2,5c4-5c5,5c7-5c7,610-61a,64b-65f,670-670,6d6-6dc",
   "6df-6e4,6e7-6e8,6ea-6ed,711-711,730-74a,7a6-7b0,7eb-7f3,7fd-7fd,816-819,81b-823,825-827",
   "829-82d,859-85b,898-89f,8ca-8e1,8e3-902,93a-93a,93c-93c,941-948,94d-94d,951-957,962-963",
   "981-981,9bc-9bc,9be-9be,9c1-9c4,9cd-9cd,9d7-9d7,9e2-9e3,9fe-9fe,a01-a02,a3c-a3c,a41-a42",
   "a47-a48,a4b-a4d,a51-a51,a70-a71,a75-a75,a81-a82,abc-abc,ac1-ac5,ac7-ac8,acd-acd,ae2-ae3",
   "afa-aff,b01-b01,b3c-b3c,b3e-b3f,b41-b44,b4d-b4d,b55-b57,b62-b63,b82-b82,bbe-bbe,bc0-bc0",
   "bcd-bcd,bd7-bd7,c00-c00,c04-c04,c3c-c3c,c3e-c40,c46-c48,c4a-c4d,c55-c56,c62-c63,c81-c81",
   "cbc-cbc,cbf-cbf,cc2-cc2,cc6-cc6,ccc-ccd,cd5-cd6,ce2-ce3,d00-d01,d3b-d3c,d3e-d3e,d41-d44",
   "d4d-d4d,d57-d57,d62-d63,d81-d81,dca-dca,dcf-dcf,dd2-dd4,dd6-dd6,ddf-ddf,e31-e31,e34-e3a",
   "e47-e4e,eb1-eb1,eb4-ebc,ec8-ece,f18-f19,f35-f35,f37-f37,f39-f39,f71-f7e,f80-f84,f86-f87",
   "f8d-f97,f99-fbc,fc6-fc6,102d-1030,1032-1037,1039-103a,103d-103e,1058-1059,105e-1060",
   "1071-1074,1082-1082,1085-1086,108d-108d,109d-109d,135d-135f,1712-1714,1732-1733",
   "1752-1753,1772-1773,17b4-17b5,17b7-17bd,17c6-17c6,17c9-17d3,17dd-17dd,180b-180d",
   "180f-180f,1885-1886,18a9-18a9,1920-1922,1927-1928,1932-1932,1939-193b,1a17-1a18",
   "1a1b-1a1b,1a56-1a56,1a58-1a5e,1a60-1a60,1a62-1a62,1a65-1a6c,1a73-1a7c,1a7f-1a7f",
   "1ab0-1ace,1b00-1b03,1b34-1b3a,1b3c-1b3c,1b42-1b42,1b6b-1b73,1b80-1b81,1ba2-1ba5",
   "1ba8-1ba9,1bab-1bad,1be6-1be6,1be8-1be9,1bed-1bed,1bef-1bf1,1c2c-1c33,1c36-1c37",
   "1cd0-1cd2,1cd4-1ce0,1ce2-1ce8,1ced-1ced,1cf4-1cf4,1cf8-1cf9,1dc0-1dff,200c-200c",
   "20d0-20f0,2cef-2cf1,2d7f-2d7f,2de0-2dff,302a-302f,3099-309a,a66f-a672,a674-a67d",
   "a69e-a69f,a6f0-a6f1,a802-a802,a806-a806,a80b-a80b,a825-a826,a82c-a82c,a8c4-a8c5",
   "a8e0-a8f1,a8ff-a8ff,a926-a92d,a947-a951,a980-a982,a9b3-a9b3,a9b6-a9b9,a9bc-a9bd",
   "a9e5-a9e5,aa29-aa2e,aa31-aa32,aa35-aa36,aa43-aa43,aa4c-aa4c,aa7c-aa7c,aab0-aab0",
   "aab2-aab4,aab7-aab8,aabe-aabf,aac1-aac1,aaec-aaed,aaf6-aaf6,abe5-abe5,abe8-abe8",
   "abed-abed,fb1e-fb1e,fe00-fe0f,fe20-fe2f,ff9e-ff9f,101fd-101fd,102e0-102e0,10376-1037a",
   "10a01-10a03,10a05-10a06,10a0c-10a0f,10a38-10a3a,10a3f-10a3f,10ae5-10ae6,10d24-10d27",
   "10eab-10eac,10efd-10eff,10f46-10f50,10f82-10f85,11001-11001,11038-11046,11070-11070",
   "11073-11074,1107f-11081,110b3-110b6,110b9-110ba,110c2-110c2,11100-11102,11127-1112b",
   "1112d-11134,11173-11173,11180-11181,111b6-111be,111c9-111cc,111cf-111cf,1122f-11231",
   "11234-11234,11236-11237,1123e-1123e,11241-11241,112df-112df,112e3-112ea,11300-11301",
   "1133b-1133c,1133e-1133e,11340-11340,11357-11357,11366-1136c,11370-11374,11438-1143f",
   "11442-11444,11446-11446,1145e-1145e,114b0-114b0,114b3-114b8,114ba-114ba,114bd-114bd",
   "114bf-114c0,114c2-114c3,115af-115af,115b2-115b5,115bc-115bd,115bf-115c0,115dc-115dd",
   "11633-1163a,1163d-1163d,1163f-11640,116ab-116ab,116ad-116ad,116b0-116b5,116b7-116b7",
   "1171d-1171f,11722-11725,11727-1172b,1182f-11837,11839-1183a,11930-11930,1193b-1193c",
   "1193e-1193e,11943-11943,119d4-119d7,119da-119db,119e0-119e0,11a01-11a0a,11a33-11a38",
   "11a3b-11a3e,11a47-11a47,11a51-11a56,11a59-11a5b,11a8a-11a96,11a98-11a99,11c30-11c36",
   "11c38-11c3d,11c3f-11c3f,11c92-11ca7,11caa-11cb0,11cb2-11cb3,11cb5-11cb6,11d31-11d36",
   "11d3a-11d3a,11d3c-11d3d,11d3f-11d45,11d47-11d47,11d90-11d91,11d95-11d95,11d97-11d97",
   "11ef3-11ef4,11f00-11f01,11f36-11f3a,11f40-11f40,11f42-11f42,13440-13440,13447-13455",
   "16af0-16af4,16b30-16b36,16f4f-16f4f,16f8f-16f92,16fe4-16fe4,1bc9d-1bc9e,1cf00-1cf2d",
   "1cf30-1cf46,1d165-1d165,1d167-1d169,1d16e-1d172,1d17b-1d182,1d185-1d18b,1d1aa-1d1ad",
   "1d242-1d244,1da00-1da36,1da3b-1da6c,1da75-1da75,1da84-1da84,1da9b-1da9f,1daa1-1daaf",
   "1e000-1e006,1e008-1e018,1e01b-1e021,1e023-1e024,1e026-1e02a,1e08f-1e08f,1e130-1e136",
   "1e2ae-1e2ae,1e2ec-1e2ef,1e4ec-1e4ef,1e8d0-1e8d6,1e944-1e94a,e0020-e007f,e0100-e01ef"]

/-- The stretches from U+20000 on that hold no printable character. -/
def unprintableAbove : List (Nat × Nat) :=
  [(0x2a6e0, 0x2a6ff), (0x2b73a, 0x2b73f), (0x2b81e, 0x2b81f), (0x2cea2, 0x2ceaf),
   (0x2ebe1, 0x2ebef), (0x2ee5e, 0x2f7ff), (0x2fa1e, 0x2ffff), (0x3134b, 0x3134f),
   (0x323b0, 0xe00ff), (0xe01f0, 0x10ffff)]

/-- The code points from U+0080 on that are alphabetic or numbers. -/
def alphanumericTable : List (Nat × Nat) :=
  parseRanges
  ["aa-aa,b2-b3,b5-b5,b9-ba,bc-be,c0-d6,d8-f6,f8-2c1,2c6-2d1,2e0-2e4,2ec-2ec,2ee-2ee,345-345",
   "370-374,376-377,37a-37d,37f-37f,386-386,388-38a,38c-38c,38e-3a1,3a3-3f5,3f7-481,48a-52f",
   "531-556,559-559,560-588,5b0-5bd,5bf-5bf,5c1-5c2,5c4-5c5,5c7-5c7,5d0-5ea,5ef-5f2,610-61a",
   "620-657,659-669,66e-6d3,6d5-6dc,6e1-6e8,6ed-6fc,6ff-6ff,710-73f,74d-7b1,7c0-7ea,7f4-7f5",
   "7fa-7fa,800-817,81a-82c,840-858,860-86a,870-887,889-88e,8a0-8c9,8d4-8df,8e3-8e9,8f0-93b",
   "93d-94c,94e-950,955-963,966-96f,971-983,985-98c,98f-990,993-9a8,9aa-9b0,9b2-9b2,9b6-9b9",
   "9bd-9c4,9c7-9c8,9cb-9cc,9ce-9ce,9d7-9d7,9dc-9dd,9df-9e3,9e6-9f1,9f4-9f9,9fc-9fc,a01-a03",
   "a05-a0a,a0f-a10,a13-a28,a2a-a30,a32-a33,a35-a36,a38-a39,a3e-a42,a47-a48,a4b-a4c,a51-a51",
   "a59-a5c,a5e-a5e,a66-a75,a81-a83,a85-a8d,a8f-a91,a93-aa8,aaa-ab0,ab2-ab3,ab5-ab9,abd-ac5",
   "ac7-ac9,acb-acc,ad0-ad0,ae0-ae3,ae6-aef,af9-afc,b01-b03,b05-b0c,b0f-b10,b13-b28,b2a-b30",
   "b32-b33,b35-b39,b3d-b44,b47-b48,b4b-b4c,b56-b57,b5c-b5d,b5f-b63,b66-b6f,b71-b77,b82-b83",
   "b85-b8a,b8e-b90,b92-b95,b99-b9a,b9c-b9c,b9e-b9f,ba3-ba4,ba8-baa,bae-bb9,bbe-bc2,bc6-bc8",
   "bca-bcc,bd0-bd0,bd7-bd7,be6-bf2,c00-c0c,c0e-c10,c12-c28,c2a-c39,c3d-c44,c46-c48,c4a-c4c",
   "c55-c56,c58-c5a,c5d-c5d,c60-c63,c66-c6f,c78-c7e,c80-c83,c85-c8c,c8e-c90,c92-ca8,caa-cb3",
   "cb5-cb9,cbd-cc4,cc6-cc8,cca-ccc,cd5-cd6,cdd-cde,ce0-ce3,ce6-cef,cf1-cf3,d00-d0c,d0e-d10",
   "d12-d3a,d3d-d44,d46-d48,d4a-d4c,d4e-d4e,d54-d63,d66-d78,d7a-d7f,d81-d83,d85-d96,d9a-db1",
   "db3-dbb,dbd-dbd,dc0-dc6,dcf-dd4,dd6-dd6,dd8-ddf,de6-def,df2-df3,e01-e3a,e40-e46,e4d-e4d",
   "e50-e59,e81-e82,e84-e84,e86-e8a,e8c-ea3,ea5-ea5,ea7-eb9,ebb-ebd,ec0-ec4,ec6-ec6,ecd-ecd",
   "ed0-ed9,edc-edf,f00-f00,f20-f33,f40-f47,f49-f6c,f71-f83,f88-f97,f99-fbc,1000-1036",
   "1038-1038,103b-1049,1050-109d,10a0-10c5,10c7-10c7,10cd-10cd,10d0-10fa,10fc-1248",
   "124a-124d,1250-1256,1258-1258,125a-125d,1260-1288,128a-128d,1290-12b0,12b2-12b5",
   "12b8-12be,12c0-12c0,12c2-12c5,12c8-12d6,12d8-1310,1312-1315,1318-135a,1369-137c",
   "1380-138f,13a0-13f5,13f8-13fd,1401-166c,166f-167f,1681-169a,16a0-16ea,16ee-16f8",
   "1700-1713,171f-1733,1740-1753,1760-176c,176e-1770,1772-1773,1780-17b3,17b6-17c8",
   "17d7-17d7,17dc-17dc,17e0-17e9,17f0-17f9,1810-1819,1820-1878,1880-18aa,18b0-18f5",
   "1900-191e,1920-192b,1930-1938,1946-196d,1970-1974,1980-19ab,19b0-19c9,19d0-19da",
   "1a00-1a1b,1a20-1a5e,1a61-1a74,1a80-1a89,1a90-1a99,1aa7-1aa7,1abf-1ac0,1acc-1ace",
   "1b00-1b33,1b35-1b43,1b45-1b4c,1b50-1b59,1b80-1ba9,1bac-1be5,1be7-1bf1,1c00-1c36",
   "1c40-1c49,1c4d-1c7d,1c80-1c88,1c90-1cba,1cbd-1cbf,1ce9-1cec,1cee-1cf3,1cf5-1cf6",
   "1cfa-1cfa,1d00-1dbf,1de7-1df4,1e00-1f15,1f18-1f1d,1f20-1f45,1f48-1f4d,1f50-1f57",
   "1f59-1f59,1f5b-1f5b,1f5d-1f5d,1f5f-1f7d,1f80-1fb4,1fb6-1fbc,1fbe-1fbe,1fc2-1fc4",
   "1fc6-1fcc,1fd0-1fd3,1fd6-1fdb,1fe0-1fec,1ff2-1ff4,1ff6-1ffc,2070-2071,2074-2079",
   "207f-2089,2090-209c,2102-2102,2107-2107,210a-2113,2115-2115,2119-211d,2124-2124",
   "2126-2126,2128-2128,212a-212d,212f-2139,213c-213f,2145-2149,214e-214e,2150-2189",
   "2460-249b,24b6-24ff,2776-2793,2c00-2ce4,2ceb-2cee,2cf2-2cf3,2cfd-2cfd,2d00-2d25",
   "2d27-2d27,2d2d-2d2d,2d30-2d67,2d6f-2d6f,2d80-2d96,2da0-2da6,2da8-2dae,2db0-2db6",
   "2db8-2dbe,2dc0-2dc6,2dc8-2dce,2dd0-2dd6,2dd8-2dde,2de0-2dff,2e2f-2e2f,3005-3007",
   "3021-3029,3031-3035,3038-303c,3041-3096,309d-309f,30a1-30fa,30fc-30ff,3105-312f",
   "3131-318e,3192-3195,31a0-31bf,31f0-31ff,3220-3229,3248-324f,3251-325f,3280-3289",
   "32b1-32bf,3400-4dbf,4e00-a48c,a4d0-a4fd,a500-a60c,a610-a62b,a640-a66e,a674-a67b",
   "a67f-a6ef,a717-a71f,a722-a788,a78b-a7ca,a7d0-a7d1,a7d3-a7d3,a7d5-a7d9,a7f2-a805",
   "a807-a827,a830-a835,a840-a873,a880-a8c3,a8c5-a8c5,a8d0-a8d9,a8f2-a8f7,a8fb-a8fb",
   "a8fd-a92a,a930-a952,a960-a97c,a980-a9b2,a9b4-a9bf,a9cf-a9d9,a9e0-a9fe,aa00-aa36",
   "aa40-aa4d,aa50-aa59,aa60-aa76,aa7a-aabe,aac0-aac0,aac2-aac2,aadb-aadd,aae0-aaef",
   "aaf2-aaf5,ab01-ab06,ab09-ab0e,ab11-ab16,ab20-ab26,ab28-ab2e,ab30-ab5a,ab5c-ab69",
   "ab70-abea,abf0-abf9,ac00-d7a3,d7b0-d7c6,d7cb-d7fb,f900-fa6d,fa70-fad9,fb00-fb06",
   "fb13-fb17,fb1d-fb28,fb2a-fb36,fb38-fb3c,fb3e-fb3e,fb40-fb41,fb43-fb44,fb46-fbb1",
   "fbd3-fd3d,fd50-fd8f,fd92-fdc7,fdf0-fdfb,fe70-fe74,fe76-fefc,ff10-ff19,ff21-ff3a",
   "ff41-ff5a,ff66-ffbe,ffc2-ffc7,ffca-ffcf,ffd2-ffd7,ffda-ffdc,10000-1000b,1000d-10026",
   "10028-1003a,1003c-1003d,1003f-1004d,10050-1005d,10080-100fa,10107-10133,10140-10178",
   "1018a-1018b,10280-1029c,102a0-102d0,102e1-102fb,10300-10323,1032d-1034a,10350-1037a",
   "10380-1039d,103a0-103c3,103c8-103cf,103d1-103d5,10400-1049d,104a0-104a9,104b0-104d3",
   "104d8-104fb,10500-10527,10530-10563,10570-1057a,1057c-1058a,1058c-10592,10594-10595",
   "10597-105a1,105a3-105b1,105b3-105b9,105bb-105bc,10600-10736,10740-10755,10760-10767",
   "10780-10785,10787-107b0,107b2-107ba,10800-10805,10808-10808,1080a-10835,10837-10838",
   "1083c-1083c,1083f-10855,10858-10876,10879-1089e,108a7-108af,108e0-108f2,108f4-108f5",
   "108fb-1091b,10920-10939,10980-109b7,109bc-109cf,109d2-10a03,10a05-10a06,10a0c-10a13",
   "10a15-10a17,10a19-10a35,10a40-10a48,10a60-10a7e,10a80-10a9f,10ac0-10ac7,10ac9-10ae4",
   "10aeb-10aef,10b00-10b35,10b40-10b55,10b58-10b72,10b78-10b91,10ba9-10baf,10c00-10c48",
   "10c80-10cb2,10cc0-10cf2,10cfa-10d27,10d30-10d39,10e60-10e7e,10e80-10ea9,10eab-10eac",
   "10eb0-10eb1,10f00-10f27,10f30-10f45,10f51-10f54,10f70-10f81,10fb0-10fcb,10fe0-10ff6",
   "11000-11045,11052-1106f,11071-11075,11080-110b8,110c2-110c2,110d0-110e8,110f0-110f9",
   "11100-11132,11136-1113f,11144-11147,11150-11172,11176-11176,11180-111bf,111c1-111c4",
   "111ce-111da,111dc-111dc,111e1-111f4,11200-11211,11213-11234,11237-11237,1123e-11241",
   "11280-11286,11288-11288,1128a-1128d,1128f-1129d,1129f-112a8,112b0-112e8,112f0-112f9",
   "11300-11303,11305-1130c,1130f-11310,11313-11328,1132a-11330,11332-11333,11335-11339",
   "1133d-11344,11347-11348,1134b-1134c,11350-11350,11357-11357,1135d-11363,11400-11441",
   "11443-11445,11447-1144a,11450-11459,1145f-11461,11480-114c1,114c4-114c5,114c7-114c7",
   "114d0-114d9,11580-115b5,115b8-115be,115d8-115dd,11600-1163e,11640-11640,11644-11644",
   "11650-11659,11680-116b5,116b8-116b8,116c0-116c9,11700-1171a,1171d-1172a,11730-1173b",
   "11740-11746,11800-11838,118a0-118f2,118ff-11906,11909-11909,1190c-11913,11915-11916",
   "11918-11935,11937-11938,1193b-1193c,1193f-11942,11950-11959,119a0-119a7,119aa-119d7",
   "119da-119df,119e1-119e1,119e3-119e4,11a00-11a32,11a35-11a3e,11a50-11a97,11a9d-11a9d",
   "11ab0-11af8,11c00-11c08,11c0a-11c36,11c38-11c3e,11c40-11c40,11c50-11c6c,11c72-11c8f",
   "11c92-11ca7,11ca9-11cb6,11d00-11d06,11d08-11d09,11d0b-11d36,11d3a-11d3a,11d3c-11d3d",
   "11d3f-11d41,11d43-11d43,11d46-11d47,11d50-11d59,11d60-11d65,11d67-11d68,11d6a-11d8e",
   "11d90-11d91,11d93-11d96,11d98-11d98,11da0-11da9,11ee0-11ef6,11f00-11f10,11f12-11f3a",
   "11f3e-11f40,11f50-11f59,11fb0-11fb0,11fc0-11fd4,12000-12399,12400-1246e,12480-12543",
   "12f90-12ff0,13000-1342f,13441-13446,14400-14646,16800-16a38,16a40-16a5e,16a60-16a69",
   "16a70-16abe,16ac0-16ac9,16ad0-16aed,16b00-16b2f,16b40-16b43,16b50-16b59,16b5b-16b61",
   "16b63-16b77,16b7d-16b8f,16e40-16e96,16f00-16f4a,16f4f-16f87,16f8f-16f9f,16fe0-16fe1",
   "16fe3-16fe3,16ff0-16ff1,17000-187f7,18800-18cd5,18d00-18d08,1aff0-1aff3,1aff5-1affb",
   "1affd-1affe,1b000-1b122,1b132-1b132,1b150-1b152,1b155-1b155,1b164-1b167,1b170-1b2fb",
   "1bc00-1bc6a,1bc70-1bc7c,1bc80-1bc88,1bc90-1bc99,1bc9e-1bc9e,1d2c0-1d2d3,1d2e0-1d2f3",
   "1d360-1d378,1d400-1d454,1d456-1d49c,1d49e-1d49f,1d4a2-1d4a2,1d4a5-1d4a6,1d4a9-1d4ac",
   "1d4ae-1d4b9,1d4bb-1d4bb,1d4bd-1d4c3,1d4c5-1d505,1d507-1d50a,1d50d-1d514,1d516-1d51c",
   "1d51e-1d539,1d53b-1d53e,1d540-1d544,1d546-1d546,1d54a-1d550,1d552-1d6a5,1d6a8-1d6c0",
   "1d6c2-1d6da,1d6dc-1d6fa,1d6fc-1d714,1d716-1d734,1d736-1d74e,1d750-1d76e,1d770-1d788",
   "1d78a-1d7a8,1d7aa-1d7c2,1d7c4-1d7cb,1d7ce-1d7ff,1df00-1df1e,1df25-1df2a,1e000-1e006",
   "1e008-1e018,1e01b-1e021,1e023-1e024,1e026-1e02a,1e030-1e06d,1e08f-1e08f,1e100-1e12c",
   "1e137-1e13d,1e140-1e149,1e14e-1e14e,1e290-1e2ad,1e2c0-1e2eb,1e2f0-1e2f9,1e4d0-1e4eb",
   "1e4f0-1e4f9,1e7e0-1e7e6,1e7e8-1e7eb,1e7ed-1e7ee,1e7f0-1e7fe,1e800-1e8c4,1e8c7-1e8cf",
   "1e900-1e943,1e947-1e947,1e94b-1e94b,1e950-1e959,1ec71-1ecab,1ecad-1ecaf,1ecb1-1ecb4",
   "1ed01-1ed2d,1ed2f-1ed3d,1ee00-1ee03,1ee05-1ee1f,1ee21-1ee22,1ee24-1ee24,1ee27-1ee27",
   "1ee29-1ee32,1ee34-1ee37,1ee39-1ee39,1ee3b-1ee3b,1ee42-1ee42,1ee47-1ee47,1ee49-1ee49",
   "1ee4b-1ee4b,1ee4d-1ee4f,1ee51-1ee52,1ee54-1ee54,1ee57-1ee57,1ee59-1ee59,1ee5b-1ee5b",
   "1ee5d-1ee5d,1ee5f-1ee5f,1ee61-1ee62,1ee64-1ee64,1ee67-1ee6a,1ee6c-1ee72,1ee74-1ee77",
   "1ee79-1ee7c,1ee7e-1ee7e,1ee80-1ee89,1ee8b-1ee9b,1eea1-1eea3,1eea5-1eea9,1eeab-1eebb",
   "1f100-1f10c,1f130-1f149,1f150-1f169,1f170-1f189,1fbf0-1fbf9,20000-2a6df,2a700-2b739",
   "2b740-2b81d,2b820-2cea1,2ceb0-2ebe0,2f800-2fa1d,30000-3134a,31350-323af"]

/-- Whether a character is alphabetic or a number. -/
def isAlphanumeric (c : Char) : Bool :=
  if c.toNat < 0x80 then c.isAlphanum else inRanges alphanumericTable c.toNat

/-- Whether a character extends the grapheme before it. -/
def isGraphemeExtend (c : Char) : Bool :=
  c.toNat ≥ 0x300 && inRanges graphemeExtendTable c.toNat

/-- Whether a quoted text may show a character as it is. -/
def isPrintable (c : Char) : Bool :=
  let n := c.toNat
  if n < 0x20 then false
  else if n < 0x7f then true
  else if n < 0x20000 then !inRanges unprintableTable n
  else !inRanges unprintableAbove n

end Unicode

end SchemaDesign
